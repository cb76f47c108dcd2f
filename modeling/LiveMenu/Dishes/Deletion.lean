import LiveMenu.Concurrent.Api

/-!
# Deleted dishes in every interleaving

An update that was under way when a dish got deleted still writes its columns, but never
`deleted_at` back to `NULL`: the dish stays deleted. Requests that begin after the deletion do not
find it.
-/

namespace LiveMenu

variable {P : Platform} {dishId : Uuid}

/-- The dish that an operation names. -/
def AdminOp.namedDish : AdminOp → Option Uuid
  | .dishGet id | .dishUpdate id _ | .dishDelete id | .dishToggle id => some id
  | _                                                                => none

/-- A dish with the id is deleted. -/
def deletedDish (dishId : Uuid) : Facts := { dish := fun d => d.id = dishId → d.deletedAt.isSome }

/-- Every write keeps a deleted dish deleted, whatever the request has read. -/
lemma deletedDish_kept : Facts.Kept P {} (deletedDish dishId)
    fun req => ∀ u, req.draws ≠ some (.dishes, dishId, u) where
  dishCreate hok _ hrow hid := by
    rw [(Dish.ofCreate_ok hrow).1] at hid
    exact absurd (by rw [← hid]; rfl) (hok _)
  dishUpdate {u _ data old new now cur} _ _ _ hset hcur hid := by
    have hkept : (old.flush new now cur).deletedAt = cur.deletedAt :=
      if_pos (Dish.setattrs_ok hset).2.2.1
    exact fun hd => hkept ▸ hcur hd
  dishDelete {u _ old at' now cur} _ hold hcur hid := by
    have hset : (old.flush { old with deletedAt := some at' } now cur).deletedAt = some at' := by
      refine if_neg ?_
      rw [hold.live]
      rintro ⟨⟩
    exact fun _ => hset.symm ▸ Option.isSome_some
  dishToggle {u _ old now cur} _ _ hcur hid := by
    have hkept : (old.flush { old with available := !old.available } now cur).deletedAt
        = cur.deletedAt := if_pos rfl
    exact fun hd => hkept ▸ hcur hd

/-! ### What later requests see -/

/-- A deleted dish is not found. -/
lemma DishService.keeps_getDish (u : Uuid) :
    (getDish dishId u).Keeps (deletedDish dishId).Hold (fun _ _ => True)
      fun r => r = .error (.http 404 "Dish not found") := by
  refine Prog.Keeps.seq (Q := fun o => o = .ok none)
    (Prog.keeps_read (fun _ _ => trivial) fun w hw => congrArg Except.ok ?_) ?_ ?_
  · refine Option.filter_eq_none_iff.mpr fun d hd hlive => ?_
    have hdel := hw.dishes d (Rows.get_mem hd) (Rows.get_key hd)
    rw [Option.isNone_iff_eq_none.mp hlive] at hdel
    cases hdel
  · rintro _ ⟨⟩
    exact Prog.keeps_raise rfl
  · rintro e ⟨⟩

/-- No operation that names a deleted dish gets beyond its lookup. -/
lemma AdminOp.keeps_deleted (P : Platform) {u : Uuid} {op : AdminOp}
    (hop : op.namedDish = some dishId) :
    (op.code P u).Keeps (deletedDish dishId).Hold (fun _ _ => True)
      fun r => r = .error (.http 404 "Dish not found") := by
  cases op <;> cases hop
  case dishGet => exact (DishService.keeps_getDish u).bind_error
  case dishUpdate | dishDelete | dishToggle =>
    exact (DishService.keeps_getDish u).bind_error.bind_error

/-- In every interleaving of all requests: once a dish is deleted, whatever has been under way, it
stays deleted, every operation that begins later and names it ends with 404, and no list of dishes
that is asked for later has it. -/
theorem deletion_lasts (P : Platform) (db : Database) (now : Time) {mid cfg : ApiConfig}
    (hmid : Serves P (apiStart db now) mid) (h : Serves P mid cfg) {dishId : Uuid}
    (hdel : ∀ d ∈ mid.state.db.dishes, d.id = dishId → d.deletedAt.isSome)
    (hids : ∀ i th u, cfg.threads i = some th → th.call.draws = some (.dishes, dishId, u) →
      mid.Ended i) :
    (∀ d ∈ cfg.state.db.dishes, d.id = dishId → d.deletedAt.isSome) ∧
      ∀ i u op r, mid.threads i = none → cfg.threads i = some ⟨.admin u op, (), .done r⟩ →
        (op.namedDish = some dishId → r = .error (.http 404 "Dish not found")) ∧
          ∀ page, r = .ok (.dishes page) → ∀ d ∈ page.items, d.id ≠ dishId := by
  have hdeleted : ∀ c, Serves P mid c → Serves P c cfg → (deletedDish dishId).Hold c.state := by
    intro c hc hrest
    refine deletedDish_kept.serves hmid hc (fun i th hi => ?_)
      { hold_nothing mid.state with dishes := hdel }
    obtain ⟨th', hi', hcall⟩ := hrest.call_eq hi
    by_cases hdraws : ∃ u, th.call.draws = some (.dishes, dishId, u)
    · obtain ⟨u, hu⟩ := hdraws
      exact .inr (hids i th' u hi' (hcall ▸ hu))
    · exact .inl fun u hu => hdraws ⟨u, hu⟩
  refine ⟨(hdeleted cfg h .refl).dishes, fun i u op r hi hdone => ⟨fun hop => ?_, ?_⟩⟩
  · exact h.result_of_later (R := fun r => r = .error (.http 404 "Dish not found")) hdeleted hi
      hdone rfl (AdminOp.keeps_deleted P hop)
  · rintro page rfl d hd hid
    have hanswer := h.answers hdeleted hi hdone
    cases hanswer with
    | dishList hr hds hpage hcounted htotal =>
      obtain ⟨hfact, hlive, -⟩ := hds.row d (hpage.subset hd)
      have hsome := hfact.1 hid
      rw [hlive] at hsome
      cases hsome

/-- The toggle of a dish that the call has ended, with its user. -/
def toggleEnded (cfg : ApiConfig) (i : ℕ) : Option (Uuid × Uuid × Except Exc Response) :=
  match cfg.threads i with
  | some ⟨.admin u (.dishToggle dishId), _, .done r⟩ => some (u, dishId, r)
  | _                                                => none

lemma toggleEnded_eq_some {cfg : ApiConfig} {i : ℕ} {u dishId : Uuid} {r : Except Exc Response}
    (h : toggleEnded cfg i = some (u, dishId, r)) :
    cfg.threads i = some ⟨.admin u (.dishToggle dishId), (), .done r⟩ := by
  rw [toggleEnded] at h
  split at h
  · cases h
    assumption
  · cases h

/-- A change of the price is about to be committed when the dish gets deleted; it is still written,
and then the dish is toggled. -/
theorem deletion_lasts_sopa :
    ∃ mid cfg r, Serves Platform.plain (apiStart sopaServed.db 0) mid ∧
      Serves Platform.plain mid cfg ∧ mid.state.db.dishes.map (·.price.val) = [5] ∧
      cfg.state.db.dishes.map (fun d => (d.price.val, d.deletedAt.isSome)) = [(8, true)] ∧
      toggleEnded cfg 2 = some (1, 30, r) ∧
      r = .error (.http 404 "Dish not found") := by
  have hrun : ((apiSystem Platform.plain).follow (fun _ _ => true)
      (.start 0 (.admin 1 (.dishUpdate 30 { price := .set ⟨⟨8, 0⟩, by decide⟩ })) ::
        List.replicate 3 (.run 0) ++
        .start 1 (.admin 1 (.dishDelete 30)) :: List.replicate 7 (.run 1))
      (apiStart sopaServed.db 0)).any (fun mid =>
        (((mid.threads 2).isNone && mid.state.db.dishes.all (·.deletedAt.isSome)) &&
            mid.state.db.dishes.map (·.price.val) = [5]) &&
          ((apiSystem Platform.plain).follow (fun _ _ => true)
            (.start 2 (.admin 1 (.dishToggle 30)) :: [0, 2].map .run) mid).any fun cfg =>
            (drawnBelow 3 cfg = [] &&
                cfg.state.db.dishes.map (fun d => (d.price.val, d.deletedAt.isSome))
                  = [(8, true)]) &&
              (toggleEnded cfg 2).any fun t => t.1 = 1 && t.2.1 = 30) = true := by
    decide +kernel
  obtain ⟨mid, hmid, hidle, hmid'⟩ := System.exists_reach_of_follow_below (n := 3) (fun _ _ => rfl)
    (fun i c h => by simp at h; omega) (fun _ _ _ _ _ _ _ => trivial) hrun
  obtain ⟨hmid', hrest⟩ := Bool.and_eq_true_iff.mp hmid'
  simp only [Bool.and_eq_true, decide_eq_true_eq, List.all_eq_true] at hmid'
  obtain ⟨⟨hnone, hdel⟩, hprice⟩ := hmid'
  obtain ⟨cfg, h, hidle', hcfg⟩ := System.exists_reach_of_follow_below hidle
    (fun i c h => by simp at h; omega) (fun _ _ _ _ _ _ _ => trivial) hrest
  simp only [Bool.and_eq_true, decide_eq_true_eq, Option.any_eq_true] at hcfg
  obtain ⟨⟨hdrawn, hdish⟩, ⟨_, _, r⟩, hended, rfl, rfl⟩ := hcfg
  have hdel : ∀ d ∈ mid.state.db.dishes, d.id = 30 → d.deletedAt.isSome := fun d hd _ => hdel d hd
  have hlasts := deletion_lasts Platform.plain sopaServed.db 0 hmid h hdel fun i th u hi hu => by
    have hmem := mem_drawnBelow hidle' hi hu
    rw [hdrawn] at hmem
    cases hmem
  have hlater := Option.isNone_iff_eq_none.mp hnone
  exact ⟨mid, cfg, r, hmid, h, hprice, hdish, hended,
    (hlasts.2 2 1 _ r hlater (toggleEnded_eq_some hended)).1 rfl⟩

end LiveMenu
