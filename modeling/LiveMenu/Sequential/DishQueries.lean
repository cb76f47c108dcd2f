import LiveMenu.Model.Requests

/-!
# The statements of the dish listing

`list_dishes` builds two statements clause by clause, one for the page and one for the total.
Both select the dishes for which one predicate holds, `DishFilter.matches`, and both are refused
exactly if a text with a NUL or a price out of range is bound.
-/

namespace LiveMenu

/-! ### What a filter selects, and when it can be bound -/

/-- The text matches the name or the description of the dish. -/
def Dish.found (P : Platform) (q : String) (d : Dish) : Bool :=
  ilike P.pgLower (searchPattern q).toList d.name.val.toList ||
    (match d.description with
      | none   => false
      | some s => ilike P.pgLower (searchPattern q).toList s.val.toList)

def Dish.tagged (tag : String) (d : Dish) : Bool :=
  match d.tags with
  | none    => false
  | some ts => ts.any fun x => x.val = tag

/-- The number that a bound price is compared as. -/
def Decimal.bound (p : Decimal) : ℚ := p.hundredths / 100

/-- The dish passes every WHERE clause. -/
def DishFilter.tests (P : Platform) (f : DishFilter) (d : Dish) : Bool :=
  (f.includeDeleted || d.deletedAt.isNone) &&
  f.categoryId.all (fun cid => decide (d.categoryId = cid)) &&
  f.available.all (fun b => d.available == b) &&
  f.featured.all (fun b => d.featured == b) &&
  f.searchQuery.all (fun q => q.isEmpty || d.found P q) &&
  f.tag.all (fun t => t.isEmpty || d.tagged t) &&
  f.minPrice.all (fun p => decide (p.bound ≤ d.price.val)) &&
  f.maxPrice.all (fun p => decide (d.price.val ≤ p.bound))

/-- The dish satisfies every filter given. -/
def DishFilter.matches (P : Platform) (f : DishFilter) (db : Database) (d : Dish) : Bool :=
  f.restaurantId.all (fun rid =>
    db.categories.any fun c => c.id = d.categoryId ∧ c.restaurantId = rid) && f.tests P d

/-- The values of the filters can be bound. -/
structure DishFilter.Binds (f : DishFilter) : Prop where
  searchQuery : ∀ q ∈ f.searchQuery, nul ∉ q.toList
  tag : ∀ t ∈ f.tag, nul ∉ t.toList
  minPrice : ∀ p ∈ f.minPrice, p.FitsNumeric
  maxPrice : ∀ p ∈ f.maxPrice, p.FitsNumeric

/-- The filter the service hands on. -/
def DishFilter.ofRestaurant (f : DishFilter) (rid : Uuid) : DishFilter :=
  { f with restaurantId := some rid, includeDeleted := false }

/-! ### Clauses -/

lemma array_append {α β : Type} (f : α → Except DbError β) (l m : List α) :
    array f (l ++ m) = (do
      let a ← array f l
      let b ← array f m
      return a ++ b) := by
  induction l with
  | nil =>
    rw [List.nil_append, array]
    cases array f m <;> rfl
  | cons a l ih =>
    rw [List.cons_append, array, array, ih]
    cases f a <;> cases array f l <;> cases array f m <;> rfl

/-- The clauses can be bound exactly under the condition, and together they test `p`. -/
structure ClausesTest (l : List Clause) (bindable : Prop) (p : Dish → Bool) : Prop where
  bound : bindable → ∃ tests, array id l = .ok tests ∧ ∀ d, (tests.all fun q => q d) = p d
  refused : ¬ bindable → array id l = .error .data

namespace ClausesTest

variable {l m : List Clause} {b b' : Prop} {p q : Dish → Bool}

lemma nil : ClausesTest [] True fun _ => true where
  bound _ := ⟨[], rfl, fun _ => rfl⟩
  refused h := absurd trivial h

lemma one {c : Clause} (hbound : b → c = .ok p) (hrefused : ¬ b → c = .error .data) :
    ClausesTest [c] b p where
  bound h := ⟨[p], by rw [hbound h]; rfl, fun d => by simp⟩
  refused h := by rw [hrefused h]; rfl

lemma append (hl : ClausesTest l b p) (hm : ClausesTest m b' q) :
    ClausesTest (l ++ m) (b ∧ b') fun d => p d && q d where
  bound h := by
    obtain ⟨tests, ht, htest⟩ := hl.bound h.1
    obtain ⟨tests', ht', htest'⟩ := hm.bound h.2
    refine ⟨tests ++ tests', by rw [array_append, ht, ht']; rfl, fun d => ?_⟩
    rw [List.all_append, htest, htest']
  refused h := by
    rw [array_append]
    by_cases hb : b
    · obtain ⟨tests, ht, -⟩ := hl.bound hb
      rw [ht, hm.refused fun hb' => h ⟨hb, hb'⟩]
      rfl
    · rw [hl.refused hb]
      rfl

lemma clause {α : Type} {c : α → Clause} {b : α → Prop} {p : α → Dish → Bool}
    (h : ∀ a, ClausesTest [c a] (b a) (p a)) (o : Option α) :
    ClausesTest (DishFilter.clause o c) (∀ a ∈ o, b a) fun d => o.all fun a => p a d := by
  cases o with
  | none => simpa [DishFilter.clause] using nil
  | some a => simpa [DishFilter.clause] using h a

lemma textClause {c : String → Clause} {b : String → Prop} {p : String → Dish → Bool}
    (h : ∀ s, ClausesTest [c s] (b s) (p s)) (hempty : b "") (o : Option String) :
    ClausesTest (DishFilter.textClause o c) (∀ s ∈ o, b s)
      fun d => o.all fun s => s.isEmpty || p s d := by
  cases o with
  | none => simpa [DishFilter.textClause] using nil
  | some s =>
    cases hs : s.isEmpty with
    | true =>
      have hb : b s := String.isEmpty_iff.mp hs ▸ hempty
      simpa [DishFilter.textClause, hs, hb] using nil
    | false => simpa [DishFilter.textClause, hs] using h s

end ClausesTest

/-! ### The clauses of the listing -/

lemma nul_mem_searchPattern {q : String} : nul ∈ (searchPattern q).toList ↔ nul ∈ q.toList := by
  have hpercent : nul ≠ '%' := by decide
  simp [searchPattern, hpercent]

namespace DishFilter

variable (P : Platform)

lemma searchFilter_of_not_nul {q : String} (h : nul ∉ q.toList) :
    searchFilter P q = .ok (Dish.found P q) := by
  rw [searchFilter, PgText.ofString, dif_pos (mt nul_mem_searchPattern.mp h)]
  rfl

lemma searchFilter_of_nul {q : String} (h : nul ∈ q.toList) : searchFilter P q = .error .data := by
  rw [searchFilter, PgText.ofString, dif_neg (not_not.mpr (nul_mem_searchPattern.mpr h))]
  rfl

lemma test_searchFilter (q : String) :
    ClausesTest [searchFilter P q] (nul ∉ q.toList) (Dish.found P q) :=
  .one (searchFilter_of_not_nul P) fun h => searchFilter_of_nul P (not_not.mp h)

lemma test_tagsContain (t : String) :
    ClausesTest [tagsContain t] (nul ∉ t.toList) (Dish.tagged t) := by
  refine .one (fun h => ?_) fun h => ?_
  · rw [tagsContain, PgText.ofString, dif_pos h]
    refine congrArg Except.ok (funext fun d => ?_)
    rw [Dish.tagged]
    cases d.tags with
    | none => rfl
    | some ts => simp only [PgText.mk_eq_iff]
  · rw [tagsContain, PgText.ofString, dif_neg h]
    rfl

lemma test_priceFrom (p : Decimal) :
    ClausesTest [priceFrom p] p.FitsNumeric fun d => decide (p.bound ≤ d.price.val) := by
  refine .one (fun h => ?_) fun h => ?_
  · rw [priceFrom, Numeric.ofDecimal, dif_pos h]
    rfl
  · rw [priceFrom, Numeric.ofDecimal, dif_neg h]
    rfl

lemma test_priceUpTo (p : Decimal) :
    ClausesTest [priceUpTo p] p.FitsNumeric fun d => decide (d.price.val ≤ p.bound) := by
  refine .one (fun h => ?_) fun h => ?_
  · rw [priceUpTo, Numeric.ofDecimal, dif_pos h]
    rfl
  · rw [priceUpTo, Numeric.ofDecimal, dif_neg h]
    rfl

/-- A clause that binds no value that could be refused. -/
lemma test_plain {α : Type} (o : Option α) (p : α → Dish → Bool) :
    ClausesTest (clause o fun a => .ok (p a)) (∀ a ∈ o, True) fun d => o.all fun a => p a d :=
  .clause (fun _ => .one (fun _ => rfl) fun h => absurd trivial h) o

variable (f : DishFilter)

lemma test_deleted :
    ClausesTest (if f.includeDeleted then [] else [.ok fun d => d.deletedAt.isNone]) True
      fun d => f.includeDeleted || d.deletedAt.isNone := by
  cases f.includeDeleted with
  | true => simpa using ClausesTest.nil
  | false => exact .one (fun _ => by simp) fun h => absurd trivial h

/-- The clauses of the page query, one after the other. -/
lemma test_query : ClausesTest (f.query P).wheres f.Binds (f.tests P) := by
  have h := (test_deleted f).append (test_plain f.categoryId fun cid d => d.categoryId = cid)
  have h := h.append (test_plain f.available fun b d => d.available == b)
  have h := h.append (test_plain f.featured fun b d => d.featured == b)
  have h := h.append (.textClause (test_searchFilter P) (by simp) f.searchQuery)
  have h := h.append (.textClause test_tagsContain (by simp) f.tag)
  have h := h.append (.clause test_priceFrom f.minPrice)
  have h := h.append (.clause test_priceUpTo f.maxPrice)
  refine ⟨fun hb => h.bound ?_, fun hb => h.refused fun hall => hb ?_⟩
  · exact ⟨⟨⟨⟨⟨⟨⟨trivial, fun _ _ => trivial⟩, fun _ _ => trivial⟩, fun _ _ => trivial⟩,
      hb.searchQuery⟩, hb.tag⟩, hb.minPrice⟩, hb.maxPrice⟩
  · exact ⟨hall.1.1.1.2, hall.1.1.2, hall.1.2, hall.2⟩

end DishFilter

/-! ### The rows -/

/-- A unique key selects one row at most. -/
lemma Rows.filter_key {κ ρ : Type} [DecidableEq κ] {key : ρ → κ} {rows : List ρ}
    (hnd : (rows.map key).Nodup) (k : κ) :
    (rows.filter fun r => key r = k) = (Rows.get key k rows).toList := by
  induction rows with
  | nil => rfl
  | cons r rows ih =>
    rw [List.map_cons, List.nodup_cons] at hnd
    by_cases hk : key r = k
    · have hnone : rows.filter (fun r => key r = k) = [] := by
        refine List.filter_eq_nil_iff.mpr fun r' hr' h => hnd.1 ?_
        rw [hk, ← of_decide_eq_true h]
        exact List.mem_map_of_mem hr'
      simp [Rows.get, hk, hnone]
    · simp [Rows.get, hk, ih hnd.2]

namespace DishQuery

/-- A dish has one category, so the join repeats no dish. -/
lemma join_eq_filter (rid : Uuid) (db : Database) :
    join rid db = db.dishes.filter fun d =>
      db.categories.any fun c => c.id = d.categoryId ∧ c.restaurantId = rid := by
  have hone : ∀ d : Dish, (db.categories.filter fun c =>
      d.categoryId = c.id ∧ c.restaurantId = rid)
        = ((Rows.get (·.id) d.categoryId db.categories).toList).filter fun c =>
          c.restaurantId = rid := by
    intro d
    rw [← Rows.filter_key db.valid.categoryId, List.filter_filter]
    apply List.filter_congr
    intro c _
    simp only [Bool.decide_and, Bool.and_comm, eq_comm (a := d.categoryId)]
  rw [join]
  induction db.dishes with
  | nil => rfl
  | cons d dishes ih =>
    rw [List.flatMap_cons, ih, hone, List.filter_cons]
    have hany : (db.categories.any fun c => c.id = d.categoryId ∧ c.restaurantId = rid)
        = (Rows.get (·.id) d.categoryId db.categories).any fun c => c.restaurantId = rid := by
      rw [Bool.eq_iff_iff, List.any_eq_true, Option.any_eq_true]
      simp only [decide_eq_true_eq]
      constructor
      · rintro ⟨c, hc, hid, hr⟩
        exact ⟨c, hid ▸ Rows.get_of_mem db.valid.categoryId hc, hr⟩
      · rintro ⟨c, hc, hr⟩
        have hid := Rows.get_key hc
        exact ⟨c, Rows.get_mem hc, hid, hr⟩
    rw [hany]
    cases Rows.get (·.id) d.categoryId db.categories with
    | none => rfl
    | some c => by_cases hr : c.restaurantId = rid <;> simp [hr]

end DishQuery

namespace DishFilter

variable {P : Platform} {f : DishFilter}

/-- The rows of the page query are the dishes that match. -/
lemma rows_query (hf : f.Binds) (db : Database) :
    (f.query P).rows db = .ok (db.dishes.filter (f.matches P db)) := by
  obtain ⟨tests, hbound, htests⟩ := (f.test_query P).bound hf
  rw [DishQuery.rows, hbound, show (f.query P).joined = f.restaurantId from rfl]
  refine congrArg Except.ok ?_
  cases hr : f.restaurantId with
  | none =>
    apply List.filter_congr
    intro d _
    rw [htests, DishFilter.matches, hr]
    rfl
  | some rid =>
    simp only [DishQuery.join_eq_filter, List.filter_filter]
    apply List.filter_congr
    intro d _
    rw [htests, DishFilter.matches, hr, Bool.and_comm]
    rfl

lemma rows_query_refused (hf : ¬ f.Binds) (db : Database) :
    (f.query P).rows db = .error .data := by
  rw [DishQuery.rows, (f.test_query P).refused hf]
  rfl

/-- The two statements have the same clauses. -/
lemma countQuery_eq : f.countQuery P = f.query P := rfl

lemma rows_of_query {db : Database} {rows : List Dish} (h : (f.query P).rows db = .ok rows) :
    rows = db.dishes.filter (f.matches P db) := by
  by_cases hf : f.Binds
  · rw [rows_query hf] at h
    exact (Except.ok.inj h).symm
  · rw [rows_query_refused hf] at h
    cases h

/-- A dish that matches is in a category of the restaurant asked for. -/
lemma category_of_matches {db : Database} {d : Dish} {rid : Uuid} (h : f.matches P db d = true)
    (hf : f.restaurantId = some rid) :
    ∃ c ∈ db.categories, c.id = d.categoryId ∧ c.restaurantId = rid := by
  simp only [DishFilter.matches, hf, Option.all_some, Bool.and_eq_true, List.any_eq_true,
    decide_eq_true_eq] at h
  exact h.1

lemma deletedAt_of_matches {db : Database} {d : Dish} (h : f.matches P db d = true)
    (hf : f.includeDeleted = false) : d.deletedAt = none := by
  simp only [DishFilter.matches, DishFilter.tests, hf, Bool.false_or, Bool.and_eq_true,
    Option.isNone_iff_eq_none] at h
  exact h.2.1.1.1.1.1.1.1

end DishFilter

namespace DishRepository

variable {P : Platform} {f : DishFilter} {limit offset : ℕ} (scan : Scan Dish) (w : World)

/-- A page, if all values can be bound. -/
lemma exec_listDishes (hf : f.Binds) (hlimit : limit < 2 ^ 63) (hoffset : offset < 2 ^ 63) :
    (listDishes P f limit offset scan).exec w =
      (.ok (((orderBy Dish.listKey (scan.order (w.db.dishes.filter (f.matches P w.db)))).drop
        offset).take limit, (w.db.dishes.filter (f.matches P w.db)).length), w) := by
  rw [listDishes, Async.exec_selectBound_bind_ok (a := (w.db.dishes.filter _).length),
    Async.exec_selectBound_bind_ok (a := ((orderBy Dish.listKey _).drop offset).take limit)]
  · rfl
  · rw [DishFilter.rows_query hf, bindBigInt, if_pos hlimit, bindBigInt, if_pos hoffset]
    rfl
  · rw [DishFilter.countQuery_eq, DishFilter.rows_query hf]
    rfl

/-- No page where one of them cannot. -/
lemma exec_listDishes_refused (h : ¬ (f.Binds ∧ limit < 2 ^ 63 ∧ offset < 2 ^ 63)) :
    (listDishes P f limit offset scan).exec w = (.error (.db .data), w) := by
  by_cases hf : f.Binds
  · rw [listDishes, Async.exec_selectBound_bind_ok (a := (w.db.dishes.filter _).length),
      Async.exec_selectBound_bind_error (e := .data)]
    · rw [DishFilter.rows_query hf]
      by_cases hlimit : limit < 2 ^ 63
      · have hoffset : ¬ offset < 2 ^ 63 := fun hoffset => h ⟨hf, hlimit, hoffset⟩
        rw [bindBigInt, if_pos hlimit, bindBigInt, if_neg hoffset]
        rfl
      · rw [bindBigInt, if_neg hlimit]
        rfl
    · rw [DishFilter.countQuery_eq, DishFilter.rows_query hf]
      rfl
  · apply Async.exec_selectBound_bind_error
    rw [DishFilter.countQuery_eq, DishFilter.rows_query_refused hf]
    rfl

end DishRepository

end LiveMenu
