import LiveMenu.Concurrent.Api

/-!
# Concurrent changes of one dish

Two requests can have loaded the same dish before either of them commits. The session of each sends
an UPDATE of the columns that it has changed, so a column keeps its value unless a request names it,
and what a request has set is there until another one sets the same column.
-/

namespace LiveMenu

/-! ### Columns -/

/-- The columns that can change. -/
inductive DishColumn where
  | categoryId | name | description | price | salePrice | imageUrl | available | featured | tags
  | position | deletedAt

namespace DishColumn

/-- The type of the values of a column. -/
abbrev Value : DishColumn → Type
  | .categoryId   => Uuid
  | .name         => Varchar 100
  | .description  => Option (Varchar 300)
  | .price        => Numeric
  | .salePrice    => Option Numeric
  | .imageUrl     => Option PgText
  | .available    => Bool
  | .featured     => Bool
  | .tags         => Option (List PgText)
  | .position     => PgInt
  | .deletedAt    => Option Time

instance : (c : DishColumn) → DecidableEq c.Value
  | .categoryId   => inferInstanceAs (DecidableEq Uuid)
  | .name         => inferInstanceAs (DecidableEq (Varchar 100))
  | .description  => inferInstanceAs (DecidableEq (Option (Varchar 300)))
  | .price        => inferInstanceAs (DecidableEq Numeric)
  | .salePrice    => inferInstanceAs (DecidableEq (Option Numeric))
  | .imageUrl     => inferInstanceAs (DecidableEq (Option PgText))
  | .available    => inferInstanceAs (DecidableEq Bool)
  | .featured     => inferInstanceAs (DecidableEq Bool)
  | .tags         => inferInstanceAs (DecidableEq (Option (List PgText)))
  | .position     => inferInstanceAs (DecidableEq PgInt)
  | .deletedAt    => inferInstanceAs (DecidableEq (Option Time))

end DishColumn

/-- The value of a column. -/
def Dish.column (d : Dish) : (c : DishColumn) → c.Value
  | .categoryId   => d.categoryId
  | .name         => d.name
  | .description  => d.description
  | .price        => d.price
  | .salePrice    => d.salePrice
  | .imageUrl     => d.imageUrl
  | .available    => d.available
  | .featured     => d.featured
  | .tags         => d.tags
  | .position     => d.position
  | .deletedAt    => d.deletedAt

/-- What an update body sets a column to, if it names it. -/
def DishUpdate.column (data : DishUpdate) : (c : DishColumn) → Option (Except DbError c.Value)
  | .categoryId   => data.categoryId.value.map (notNull .ok)
  | .name         => data.name.value.map (notNull fun s => Varchar.ofString 100 s.val)
  | .description  => data.description.value.map (nullable fun s => Varchar.ofString 300 s.val)
  | .price        => data.price.value.map (notNull fun p => Numeric.ofDecimal p.val)
  | .salePrice    => data.salePrice.value.map (nullable fun p => Numeric.ofDecimal p.val)
  | .imageUrl     => data.imageUrl.value.map (nullable PgText.ofPy)
  | .available    => data.available.value.map (notNull .ok)
  | .featured     => data.featured.value.map (notNull .ok)
  | .tags         => data.tags.value.map (nullable (array PgText.ofPy))
  | .position     => data.position.value.map (notNull PgInt.ofInt)
  | .deletedAt    => none

lemma setNotNull_eq {α β : Type} (f : α → Except DbError β) (old : β) (field : Patch α) :
    setNotNull f old field = (field.value.map (notNull f)).getD (.ok old) := by
  rw [setNotNull]
  cases field.value <;> rfl

lemma setNullable_eq {α β : Type} (f : α → Except DbError β) (old : Option β) (field : Patch α) :
    setNullable f old field = (field.value.map (nullable f)).getD (.ok old) := by
  rw [setNullable]
  cases field.value <;> rfl

/-- After the `setattr` loop a column has what the body says, or what it had. -/
lemma Dish.setattrs_column {d d' : Dish} {data : DishUpdate} (h : d.setattrs data = .ok d')
    (c : DishColumn) : (data.column c).getD (.ok (d.column c)) = .ok (d'.column c) := by
  simp only [setattrs, setNotNull_eq, setNullable_eq, Except.bind_eq_ok_iff, Except.pure_eq_ok,
    Except.ok.injEq] at h
  obtain ⟨ca, hca, n, hn, de, hde, pr, hpr, sp, hsp, im, him, av, hav, fe, hfe, ta, hta, po, hpo,
    rfl⟩ := h
  cases c <;> first | assumption | rfl

lemma Dish.flush_column (old new cur : Dish) (now : Time) (c : DishColumn) :
    (old.flush new now cur).column c
      = flushColumn (old.column c) (new.column c) (cur.column c) := by
  cases c <;> rfl

variable {P : Platform} {dishId : Uuid} {c : DishColumn}

/-- The request can set the column of the dish. -/
def Request.Sets (dishId : Uuid) (c : DishColumn) : Request → Prop
  | .admin _ (.dishCreate _ id)     => id = dishId
  | .admin _ (.dishUpdate id data)  => id = dishId ∧ (data.column c).isSome
  | .admin _ (.dishDelete id)       => id = dishId ∧ c = .deletedAt
  | .admin _ (.dishToggle id)       => id = dishId ∧ c = .available
  | _                               => False

/-- The column of the dish has the value. -/
def columnIs (dishId : Uuid) (c : DishColumn) (v : c.Value) : Facts where
  dish d := d.id = dishId → d.column c = v

/-- An UPDATE that leaves the column as it was loaded, or sets it to the value. -/
lemma columnIs_flush {v : c.Value} {old new cur : Dish} {now : Time} (hid : cur.id = old.id)
    (hcur : (columnIs dishId c v).dish cur)
    (h : old.id = dishId → new.column c = old.column c ∨ new.column c = v) :
    (columnIs dishId c v).dish (old.flush new now cur) := by
  intro hdish
  have hdish : cur.id = dishId := hdish
  rw [Dish.flush_column, flushColumn, hcur hdish]
  split_ifs with hsame
  · rfl
  · exact (h (hid.symm.trans hdish)).resolve_left hsame

/-- A request keeps the column unless it sets it to something else. -/
lemma columnIs_kept (v : c.Value) : Facts.Kept P {} (columnIs dishId c v) fun req =>
    req.Sets dishId c → ∃ u data, req = .admin u (.dishUpdate dishId data) ∧
      data.column c = some (.ok v) where
  dishCreate hok _ hrow hid := by
    rw [(Dish.ofCreate_ok hrow).1] at hid
    obtain ⟨u, data, heq, -⟩ := hok hid
    cases heq
  dishUpdate {u id data old new now cur} hok hold _ hset hcur hid := by
    refine columnIs_flush hid hcur fun hdish => ?_
    have hnew := Dish.setattrs_column hset c
    cases hdata : data.column c with
    | none =>
      rw [hdata] at hnew
      exact .inl (Except.ok.inj hnew).symm
    | some r =>
      obtain ⟨u', data', heq, hdata'⟩ :=
        hok ⟨hold.id.symm.trans hdish, by rw [hdata, Option.isSome_some]⟩
      cases heq
      rw [hdata', Option.getD_some, Except.ok.injEq] at hnew
      exact .inr hnew.symm
  dishDelete {u id old at' now cur} hok hold hcur hid := by
    refine columnIs_flush hid hcur fun hdish => .inl ?_
    by_cases hc : c = .deletedAt
    · obtain ⟨u', data, heq, -⟩ := hok ⟨hold.id.symm.trans hdish, hc⟩
      cases heq
    · cases c <;> first | rfl | exact absurd rfl hc
  dishToggle {u id old now cur} hok hold hcur hid := by
    refine columnIs_flush hid hcur fun hdish => .inl ?_
    by_cases hc : c = .available
    · obtain ⟨u', data, heq, -⟩ := hok ⟨hold.id.symm.trans hdish, hc⟩
      cases heq
    · cases c <;> first | rfl | exact absurd rfl hc

/-! ### What an update brings about -/

/-- The column of the dish has the value that the body sets it to. -/
def AsNamed (dishId : Uuid) (c : DishColumn) (data : DishUpdate) (w : World) : Prop :=
  ∃ v, data.column c = some (.ok v) ∧ (columnIs dishId c v).Hold w

lemma columnIs_hold {w : World} {v : c.Value}
    (h : ∀ d ∈ w.db.dishes, d.id = dishId → d.column c = v) : (columnIs dishId c v).Hold w :=
  { hold_nothing w with dishes := h }

/-- The dish is returned as it was loaded, and it was not yet as the body says. -/
lemma DishService.passesOr_getDish (u : Uuid) (data : DishUpdate) :
    (getDish dishId u).PassesOr (AsNamed dishId c data) fun r => ∀ d, r = .ok d →
      d.id = dishId ∧ data.column c ≠ some (.ok (d.column c)) := by
  refine Prog.PassesOr.seq (R := fun o => ∀ d, o = .ok (some d) →
    d.id = dishId ∧ data.column c ≠ some (.ok (d.column c))) (Prog.passesOr_read fun w => ?_) ?_ ?_
  · refine or_iff_not_imp_left.mpr fun hnot d hd => ?_
    obtain ⟨hget, -⟩ := Option.filter_eq_some_iff.mp (Except.ok.inj hd)
    have hid := Rows.get_key hget
    refine ⟨hid, fun hnamed => hnot ⟨_, hnamed, columnIs_hold fun d' hd' hid' => ?_⟩⟩
    rw [Rows.eq_of_key_eq w.db.valid.dishId hd' (Rows.get_mem hget) (hid'.trans hid.symm)]
  · intro o ho
    cases o with
    | none =>
      refine Prog.passesOr_raise ?_
      rintro d ⟨⟩
    | some d =>
      refine Prog.PassesOr.seq (R := fun _ => True) (Prog.passesOr_any fun _ => trivial)
        (fun _ _ => Prog.passesOr_pure ?_) ?_
      · rintro _ ⟨⟩
        exact ho d rfl
      · rintro e - d ⟨⟩
  · rintro e - d ⟨⟩

/-- If the column was not as the body says when the dish was loaded, the commit sets it. -/
lemma DishRepository.passesOr_update {data : DishUpdate} {old : Dish}
    (hdata : (data.column c).isSome) (hid : old.id = dishId)
    (hold : data.column c ≠ some (.ok (old.column c))) :
    (update old data).PassesOr (AsNamed dishId c data) fun r => ∃ e, r = .error e := by
  refine Prog.PassesOr.seq (R := fun r => ∃ e, r = .error e) (Prog.passesOr_attempt ?_ ?_) ?_ ?_
  · intro w _ w' hw
    refine .inr (.inl ?_)
    split at hw
    · rename_i hwrite
      cases hw
      simp only [Except.bind_eq_ok_iff, Except.pure_eq_ok, Except.ok.injEq, Prod.mk.injEq] at hwrite
      obtain ⟨db', ⟨new, hset, hdb⟩, -, rfl⟩ := hwrite
      have hnew := Dish.setattrs_column hset c
      obtain ⟨r, hr⟩ := Option.isSome_iff_exists.mp hdata
      rw [hr, Option.getD_some] at hnew
      subst hnew
      have hchanged : new.column c ≠ old.column c := fun heq => hold (heq ▸ hr)
      refine ⟨new.column c, hr, columnIs_hold fun d hd hdid => ?_⟩
      obtain ⟨rfl, -⟩ | ⟨-, ht⟩ := Database.update_ok hdb
      · exact absurd rfl hchanged
      · have hrows : db'.dishes = Rows.modify (·.id) old.id (old.flush new w.now) w.db.dishes :=
          congrArg Tables.dishes ht
        rw [hrows] at hd
        obtain ⟨-, hne⟩ | ⟨cur, -, -, rfl⟩ := Rows.mem_modify.mp hd
        · exact absurd (hdid.trans hid.symm) hne
        · rw [Dish.flush_column, flushColumn, if_neg hchanged]
    · cases hw
  · exact fun w e _ => .inr ⟨e, rfl⟩
  · rintro _ ⟨e, ⟨⟩⟩
  · exact fun e _ => ⟨e, rfl⟩

/-- An update that returns has gone through a state where the column is as its body says. -/
lemma DishService.passesOr_update (u : Uuid) {data : DishUpdate} (hdata : (data.column c).isSome) :
    (Request.code P (.admin u (.dishUpdate dishId data))).PassesOr (AsNamed dishId c data)
      fun r => ∃ e, r = .error e := by
  have herror : ∀ {α β : Type} (e : Exc), (∃ e', (.error e : Except Exc α) = .error e') →
      ∃ e', (.error e : Except Exc β) = .error e' := fun e _ => ⟨e, rfl⟩
  refine Prog.PassesOr.seq (R := fun r => ∃ e, r = .error e) ?_ ?_ fun e => herror e
  · refine (passesOr_getDish u data).seq (fun d hd => ?_) fun e _ => ⟨e, rfl⟩
    obtain ⟨hid, hold⟩ := hd d rfl
    refine Prog.PassesOr.seq (R := fun _ => True) (Prog.passesOr_any fun _ => trivial)
      (fun _ _ => ?_) fun e _ => ⟨e, rfl⟩
    refine (DishRepository.passesOr_update hdata hid hold).seq ?_ fun e => herror e
    rintro _ ⟨e, ⟨⟩⟩
  · rintro _ ⟨e, ⟨⟩⟩

/-- In every interleaving of all requests, for every column of a dish that requests set: while no
request that can set the column is under way it keeps its value; and when an update that names it
has returned, and every other request that can set it had ended before the update began, it has the
value that the update has set, whatever other columns have been changed meanwhile. -/
theorem updates_merge (P : Platform) (db : Database) (now : Time) {first cfg : ApiConfig}
    (hfirst : Serves P (apiStart db now) first) (h : Serves P first cfg) (dishId : Uuid)
    (c : DishColumn) :
    ((∀ j th, cfg.threads j = some th → th.call.Sets dishId c → first.Ended j) →
      ∀ d ∈ first.state.db.dishes, d.id = dishId → ∀ d' ∈ cfg.state.db.dishes, d'.id = dishId →
        d'.column c = d.column c) ∧
    ∀ i u data a, first.threads i = none →
      cfg.threads i = some ⟨.admin u (.dishUpdate dishId data), (), .done (.ok a)⟩ →
      (data.column c).isSome →
      (∀ j th, j ≠ i → cfg.threads j = some th → th.call.Sets dishId c → first.Ended j) →
      ∀ d ∈ cfg.state.db.dishes, d.id = dishId → data.column c = some (.ok (d.column c)) := by
  constructor
  · intro hothers d hd hid
    have hstart : (columnIs dishId c (d.column c)).Hold first.state :=
      columnIs_hold fun d' hd' hid' => by
        rw [Rows.eq_of_key_eq first.state.db.valid.dishId hd' hd (hid'.trans hid.symm)]
    refine ((columnIs_kept _).serves hfirst h (fun j th hj => ?_) hstart).dishes
    exact or_iff_not_imp_right.mpr fun hended hsets => absurd (hothers j th hj hsets) hended
  · intro i u data a hnone hi hdata hothers d hd hid
    have hstable : ∀ mid, Serves P first mid → Serves P mid cfg →
        AsNamed dishId c data mid.state → AsNamed dishId c data cfg.state := by
      rintro mid hmid hrest ⟨v, hv, hhold⟩
      refine ⟨v, hv, (columnIs_kept v).serves (hfirst.trans hmid) hrest (fun j th hj => ?_) hhold⟩
      by_cases hji : j = i
      · subst hji
        rw [hi] at hj
        cases hj
        exact .inl fun _ => ⟨u, data, rfl, hv⟩
      · refine or_iff_not_imp_right.mpr fun hended hsets => absurd ?_ hended
        exact hmid.ended (hothers j th hji hj hsets)
    obtain ⟨v, hv, hhold⟩ | ⟨e, he⟩ :=
      h.brings hnone hi (DishService.passesOr_update (P := P) u hdata) hstable
    · rw [hv, hhold.dishes d hd hid]
    · cases he

/-- The update that the call has returned from. -/
def updated (cfg : ApiConfig) (i : ℕ) : Option (Uuid × Uuid × DishUpdate × Response) :=
  match cfg.threads i with
  | some ⟨.admin u (.dishUpdate dishId data), _, .done (.ok a)⟩ => some (u, dishId, data, a)
  | _                                                           => none

lemma updated_eq_some {cfg : ApiConfig} {i : ℕ} {u dishId : Uuid} {data : DishUpdate} {a : Response}
    (h : updated cfg i = some (u, dishId, data, a)) :
    cfg.threads i = some ⟨.admin u (.dishUpdate dishId data), (), .done (.ok a)⟩ := by
  rw [updated] at h
  split at h
  · cases h
    assumption
  · cases h

/-- Two updates of the soup load it before either of them commits: one sets its name, the other its
price. -/
theorem updates_merge_sopa :
    ∃ cfg d, ∃ data data' : DishUpdate, Serves Platform.plain (apiStart sopaServed.db 0) cfg ∧
      d ∈ cfg.state.db.dishes ∧ d.name.val = "Crema" ∧ d.price.val = 11 ∧
      data.column .name = some (.ok (d.column .name)) ∧ (data.column .price).isNone ∧
      data'.column .price = some (.ok (d.column .price)) ∧ (data'.column .name).isNone := by
  have hrun : ((apiSystem Platform.plain).follow (fun _ _ => true)
      (.start 0 (.admin 1 (.dishUpdate 30 { name := .set ⟨"Crema", by decide⟩ })) ::
        .start 1 (.admin 1 (.dishUpdate 30 { price := .set ⟨⟨11, 0⟩, by decide⟩ })) ::
          [0, 1, 0, 1, 0, 1, 0, 1, 0, 1, 0, 1].map .run) (apiStart sopaServed.db 0)).any (fun cfg =>
        (cfg.state.db.dishes.any fun d =>
          d.id = 30 && (d.name.val = "Crema" && d.price.val = 11)) &&
          ((updated cfg 0).any (fun r => (r.1 = 1 && r.2.1 = 30) &&
              ((r.2.2.1.column .name).isSome && (r.2.2.1.column .price).isNone)) &&
            (updated cfg 1).any fun r => (r.1 = 1 && r.2.1 = 30) &&
              ((r.2.2.1.column .price).isSome && (r.2.2.1.column .name).isNone))) = true := by
    decide +kernel
  obtain ⟨cfg, h, hidle, hcfg⟩ := System.exists_reach_of_follow_below (n := 2) (fun _ _ => rfl)
    (fun i c h => by simp at h; omega) (fun _ _ _ _ _ _ _ => trivial) hrun
  simp only [Bool.and_eq_true, Option.any_eq_true, List.any_eq_true, decide_eq_true_eq] at hcfg
  obtain ⟨⟨d, hd, hid, hname, hprice⟩,
    ⟨⟨_, _, data, a⟩, h₀, ⟨rfl, rfl⟩, hsome₀, hnone₀⟩,
    ⟨⟨_, _, data', a'⟩, h₁, ⟨rfl, rfl⟩, hsome₁, hnone₁⟩⟩ := hcfg
  have h₀ := updated_eq_some h₀
  have h₁ := updated_eq_some h₁
  have hmerge := fun c => (updates_merge Platform.plain sopaServed.db 0 .refl h 30 c).2
  refine ⟨cfg, d, data, data', h, hd, hname, hprice,
    hmerge .name 0 1 data a rfl h₀ hsome₀ (fun j th hj hth hsets => ?_) d hd hid, hnone₀,
    hmerge .price 1 1 data' a' rfl h₁ hsome₁ (fun j th hj hth hsets => ?_) d hd hid, hnone₁⟩
  -- the other update does not name the column, and there is no third call
  · obtain rfl | hj : j = 1 ∨ 2 ≤ j := by omega
    · rw [h₁] at hth
      cases hth
      have hsome : (data'.column .name).isSome := hsets.2
      rw [Option.isNone_iff_eq_none.mp hnone₁] at hsome
      cases hsome
    · rw [hidle j hj] at hth
      cases hth
  · obtain rfl | hj : j = 0 ∨ 2 ≤ j := by omega
    · rw [h₀] at hth
      cases hth
      have hsome : (data.column .price).isSome := hsets.2
      rw [Option.isNone_iff_eq_none.mp hnone₀] at hsome
      cases hsome
    · rw [hidle j hj] at hth
      cases hth

end LiveMenu
