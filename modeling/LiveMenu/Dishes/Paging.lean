import LiveMenu.Dishes.Listing
import LiveMenu.Lib.Pages
import LiveMenu.Menu.DishOrder

/-!
# Reading the listing page by page

The listing is sorted by position and creation time. Dishes that share both come in any order,
in another one for each page, so a client that follows `has_more` reads every dish once exactly
where no page ends between two such dishes, and every page can be asked for.
-/

namespace LiveMenu

open DishService

/-- The pages a client reads from `offset` on while `has_more` holds; the server chooses an order
of ties for each request. -/
inductive PageSequence (P : Platform) (u : Uuid) (f : DishFilter) (limit : ℕ) (w : World)
    (scans : ℕ → Scan Dish) : ℕ → List (PaginatedResponse Dish) → Prop
  | last {offset : ℕ} {page : PaginatedResponse Dish}
      (hpage : (listDishes P u f limit offset (scans offset)).exec w = (.ok page, w))
      (hmore : page.hasMore = false) : PageSequence P u f limit w scans offset [page]
  | more {offset : ℕ} {page : PaginatedResponse Dish} {pages : List (PaginatedResponse Dish)}
      (hpage : (listDishes P u f limit offset (scans offset)).exec w = (.ok page, w))
      (hmore : page.hasMore = true)
      (hrest : PageSequence P u f limit w scans (offset + limit) pages) :
      PageSequence P u f limit w scans offset (page :: pages)

section

variable {P : Platform} {u : Uuid} {f : DishFilter} {limit : ℕ} {w : World} {r : Restaurant}
  {scans : ℕ → Scan Dish}

/-- The order of the ties is all that is left open. -/
lemma PageSequence.functional {offset : ℕ} {pages pages' : List (PaginatedResponse Dish)}
    (h : PageSequence P u f limit w scans offset pages)
    (h' : PageSequence P u f limit w scans offset pages') : pages = pages' := by
  induction h generalizing pages' with
  | last hpage hmore =>
    cases h' with
    | last hpage' hmore' =>
      rw [hpage] at hpage'
      cases hpage'
      rfl
    | more hpage' hmore' =>
      rw [hpage] at hpage'
      cases hpage'
      rw [hmore] at hmore'
      cases hmore'
  | more hpage hmore hrest ih =>
    cases h' with
    | last hpage' hmore' =>
      rw [hpage] at hpage'
      cases hpage'
      rw [hmore] at hmore'
      cases hmore'
    | more hpage' hmore' hrest' =>
      rw [hpage] at hpage'
      cases hpage'
      rw [ih hrest']

/-- The page at `offset`, from the arrangement that the server chose for it. -/
def DishFilter.page (P : Platform) (f : DishFilter) (db : Database) (rid : Uuid) (limit : ℕ)
    (scans : ℕ → Scan Dish) (offset : ℕ) : PaginatedResponse Dish where
  items := ((orderBy Dish.listKey ((scans offset).order (f.matching P db rid))).drop offset).take
    limit
  total := (f.matching P db rid).length
  limit := limit
  offset := offset

/-- The page of every offset that a client reaches can be asked for. -/
structure DishFilter.PagesTaken (f : DishFilter) (limit total : ℕ) : Prop where
  binds : f.Binds
  offset : ∀ k, k * limit < total → k * limit < 2 ^ 63

variable (hr : Rows.get (·.ownerUserId) u w.db.restaurants = some r)
  (hcat : ∀ cid ∈ f.categoryId, w.db.categoryOwner cid = some u) (hlimit : 1 ≤ limit)
include hr hcat hlimit

/-- As many pages as it takes to read the dishes from `offset` on. -/
lemma pageSequence_from (n offset : ℕ)
    (hn : n = pageCount ((f.matching P w.db r.id).length - offset) limit)
    (htaken : ∀ i < n, f.Taken limit (offset + i * limit)) :
    PageSequence P u f limit w scans offset
      ((List.range n).map fun i => f.page P w.db r.id limit scans (offset + i * limit)) := by
  induction n generalizing offset with
  | zero => exact absurd hn (Nat.ne_of_lt (le_max_left 1 _))
  | succ n ih =>
    have hfirst : f.Taken limit offset := by
      have h := htaken 0 n.succ_pos
      rwa [Nat.zero_mul, Nat.add_zero] at h
    have hpage := exec_listDishes_taken (P := P) f limit offset (scans offset) hr hcat hfirst
    have hoffset : ∀ i, offset + (i + 1) * limit = offset + limit + i * limit := by
      intro i
      rw [Nat.succ_mul]
      omega
    rw [List.range_succ_eq_map, List.map_cons, Nat.zero_mul, Nat.add_zero, List.map_map]
    by_cases hmore : offset + limit < (f.matching P w.db r.id).length
    · rw [pageCount_of_lt hlimit (by omega), Nat.sub_sub] at hn
      have hrest := ih (offset + limit) (Nat.succ.inj hn) fun i hi => by
        rw [← hoffset]
        exact htaken (i + 1) (Nat.succ_lt_succ hi)
      refine .more hpage (decide_eq_true hmore) ?_
      convert hrest using 2
      funext i
      rw [Function.comp_apply, Nat.succ_eq_add_one, hoffset]
    · rw [pageCount_of_le hlimit (by omega)] at hn
      obtain rfl := Nat.succ.inj hn
      exact .last hpage (decide_eq_false hmore)

omit hlimit in
/-- A client that reads the pages asks for each of them. -/
lemma PageSequence.taken {offset : ℕ} {pages : List (PaginatedResponse Dish)}
    (h : PageSequence P u f limit w scans offset pages) (k : ℕ)
    (hk : k = 0 ∨ offset + k * limit < (f.matching P w.db r.id).length) :
    f.Taken limit (offset + k * limit) := by
  induction h generalizing k with
  | @last offset page hpage hmore =>
    obtain ⟨htaken, rfl⟩ := listDishes_eq_ok f limit _ _ hr hcat hpage
    simp only [PaginatedResponse.hasMore, decide_eq_false_iff_not, not_lt] at hmore
    obtain rfl : k = 0 := by
      rcases hk with rfl | hk
      · rfl
      · by_contra hne
        have := Nat.le_mul_of_pos_left limit (Nat.pos_of_ne_zero hne)
        omega
    rwa [Nat.zero_mul, Nat.add_zero]
  | @more offset page pages hpage hmore hrest ih =>
    cases k with
    | zero =>
      rw [Nat.zero_mul, Nat.add_zero]
      exact (listDishes_eq_ok f limit _ _ hr hcat hpage).1
    | succ k =>
      have hoffset : offset + (k + 1) * limit = offset + limit + k * limit := by
        rw [Nat.succ_mul]
        omega
      rw [hoffset] at hk ⊢
      exact ih k (.inr (hk.resolve_left k.succ_ne_zero))

omit hlimit in
lemma PageSequence.pagesTaken {pages : List (PaginatedResponse Dish)}
    (h : PageSequence P u f limit w scans 0 pages) :
    f.PagesTaken limit (f.matching P w.db r.id).length where
  binds := (h.taken hr hcat 0 (.inl rfl)).binds
  offset k hk := by
    have h := (h.taken hr hcat k (.inr (by rwa [Nat.zero_add]))).offset
    rwa [Nat.zero_add] at h

/-- The pages that are read from the first one on. -/
lemma pageSequence_iff (hmax : limit ≤ 100)
    (htaken : f.PagesTaken limit (f.matching P w.db r.id).length)
    {pages : List (PaginatedResponse Dish)} :
    PageSequence P u f limit w scans 0 pages ↔
      pages = (List.range (pageCount (f.matching P w.db r.id).length limit)).map fun i =>
        f.page P w.db r.id limit scans (i * limit) := by
  have h := @pageSequence_from P u f limit w r scans hr hcat hlimit _ 0 rfl fun i hi => by
    refine ⟨htaken.binds, hmax.trans_lt (by norm_num), ?_⟩
    rw [Nat.zero_add]
    rw [Nat.sub_zero] at hi
    rcases Nat.eq_zero_or_pos i with rfl | hpos
    · omega
    · exact htaken.offset i (mul_lt_of_lt_pageCount hlimit hpos hi)
  simp only [Nat.zero_add, Nat.sub_zero] at h
  constructor
  · intro h'
    exact h'.functional h
  · rintro rfl
    exact h

omit hr hcat hlimit in
lemma flatMap_items (n : ℕ) :
    ((List.range n).map fun i => f.page P w.db r.id limit scans (i * limit)).flatMap (·.items)
      = (List.range n).flatMap fun i => pageSlice (orderBy Dish.listKey
        ((scans (i * limit)).order (f.matching P w.db r.id))) limit i := by
  rw [List.flatMap_map]
  rfl

/-- Where a break is not clear, a dish is read on both of its sides. -/
lemma clearBreak_of_nodup (hmax : limit ≤ 100) {k : ℕ}
    (h : ∀ scans : ℕ → Scan Dish, ∃ pages, PageSequence P u f limit w scans 0 pages ∧
      (pages.flatMap (·.items)).Nodup) :
    ClearBreak Dish.listKey (f.matching P w.db r.id) (k * limit) := by
  by_contra hc
  have hstored := orderBy_perm Dish.listKey (f.matching P w.db r.id)
  have hsorted := orderBy_sorted Dish.listKey (f.matching P w.db r.id)
  obtain ⟨l', hl', hsorted', d, hpos, hbefore, hafter⟩ :=
    exists_exchanged (fun h' => hc (h'.of_perm hstored)) hsorted
  obtain ⟨hlt, -⟩ := List.getElem?_eq_some_iff.mp hafter
  rw [hl'.length_eq, hstored.length_eq] at hlt
  obtain ⟨k, rfl⟩ : ∃ j, k = j + 1 := Nat.exists_eq_succ_of_ne_zero (by rintro rfl; omega)
  -- the page before the break comes as it is stored, the page after it exchanged
  have hne : k * limit ≠ (k + 1) * limit := by
    rw [Nat.succ_mul]
    omega
  obtain ⟨pages, hpages, hnd⟩ :=
    h fun o => if o = (k + 1) * limit then Scan.of l' else Scan.stored Dish
  have htaken := hpages.pagesTaken hr hcat
  rw [(pageSequence_iff hr hcat hlimit hmax htaken).mp hpages, flatMap_items,
    List.nodup_flatMap] at hnd
  have hdisjoint := List.pairwise_iff_getElem.mp hnd.2 k (k + 1)
    (by rw [List.length_range]; exact (Nat.lt_succ_self k).trans (lt_pageCount hlimit hlt))
    (by rw [List.length_range]; exact lt_pageCount hlimit hlt) (Nat.lt_succ_self k)
  have hfirst : d ∈ pageSlice (orderBy Dish.listKey (f.matching P w.db r.id)) limit k := by
    apply List.mem_of_getElem? (i := limit - 1)
    rw [pageSlice_getElem? (by omega), ← hbefore]
    congr 1
    rw [Nat.succ_mul]
    omega
  have hsecond : d ∈ pageSlice l' limit (k + 1) := by
    apply List.mem_of_getElem? (i := 0)
    rw [pageSlice_getElem? hlimit, Nat.add_zero]
    exact hafter
  have hexchanged : orderBy Dish.listKey ((Scan.of l').order (f.matching P w.db r.id)) = l' := by
    rw [Scan.of_order (hstored.symm.trans hl'.symm), orderBy_of_sorted hsorted']
  simp only [List.getElem_range, Function.onFun, if_neg hne, if_true, hexchanged] at hdisjoint
  exact hdisjoint hfirst hsecond

end

/-- Following `has_more` from the first page on, a client reads each dish that matches exactly
once, in `max(1, total_pages)` pages, whatever order the ties come in, if and only if every page
can be asked for and none ends between two matching dishes that share position and creation
time. -/
theorem DishService.paging_covers_iff (P : Platform) (w : World) (u : Uuid) (f : DishFilter)
    (r : Restaurant) (limit : ℕ)
    (hr : Rows.get (·.ownerUserId) u w.db.restaurants = some r)
    (hcat : ∀ cid ∈ f.categoryId, w.db.categoryOwner cid = some u) (hlimit : 1 ≤ limit)
    (hmax : limit ≤ 100) :
    (∀ scans : ℕ → Scan Dish, ∃ pages, PageSequence P u f limit w scans 0 pages ∧
      (pages.flatMap (·.items)).Nodup ∧
      (∀ d, d ∈ pages.flatMap (·.items) ↔ d ∈ w.db.dishes ∧ f.Selects P w.db r.id d) ∧
      ∀ page ∈ pages, pages.length = max 1 page.totalPages) ↔
    f.PagesTaken limit (f.matching P w.db r.id).length ∧
      ∀ k, ClearBreak Dish.listKey (f.matching P w.db r.id) (k * limit) := by
  constructor
  · intro h
    refine ⟨?_, fun k => clearBreak_of_nodup hr hcat hlimit hmax fun scans => ?_⟩
    · obtain ⟨pages, hpages, -⟩ := h fun _ => Scan.stored Dish
      exact hpages.pagesTaken hr hcat
    · obtain ⟨pages, hpages, hnd, -⟩ := h scans
      exact ⟨pages, hpages, hnd⟩
  · rintro ⟨htaken, hc⟩ scans
    refine ⟨_, (pageSequence_iff hr hcat hlimit hmax htaken).mpr rfl, ?_⟩
    have hperm := flatMap_pageSlice_perm hc (le_pageCount_mul hlimit _)
      (fun i => ((orderBy_perm Dish.listKey _).trans ((scans (i * limit)).perm _)).symm)
      fun i => orderBy_sorted Dish.listKey _
    rw [← flatMap_items] at hperm
    refine ⟨hperm.nodup_iff.mpr (f.matching_nodup P w.db r.id), fun d => ?_, ?_⟩
    · rw [hperm.mem_iff, f.mem_matching]
    · intro page hpage
      obtain ⟨i, -, rfl⟩ := List.mem_map.mp hpage
      rw [List.length_map, List.length_range, PaginatedResponse.totalPages, DishFilter.page,
        if_neg (by dsimp only; omega)]
      rfl

/-- No filter is given, and the offsets are small. -/
lemma DishFilter.pagesTaken_all {limit total : ℕ} (h : total ≤ 2 ^ 63) :
    DishFilter.PagesTaken {} limit total :=
  ⟨⟨by simp, by simp, by simp, by simp⟩, fun _ hk => hk.trans_le h⟩

/-- Dishes created one after the other are read once each. -/
theorem DishService.paging_covers_iff_created :
    ∃ pages, PageSequence Platform.plain 1 {} 1 (twoDishes {}) (fun _ => Scan.stored Dish) 0
        pages ∧
      (pages.flatMap (·.items)).Nodup ∧
      (∀ d, d ∈ pages.flatMap (·.items) ↔
        d ∈ (twoDishes {}).db.dishes ∧
          DishFilter.Selects Platform.plain {} (twoDishes {}).db 10 d) ∧
      ∀ page ∈ pages, pages.length = max 1 page.totalPages := by
  refine (paging_covers_iff Platform.plain (twoDishes {}) 1 {} casa 1 (by decide +kernel)
    (fun _ h => by cases h) le_rfl (by decide)).mpr
      ⟨DishFilter.pagesTaken_all (by decide +kernel), fun k => ?_⟩ _
  rcases k with _ | _ | k
  · exact fun d _ h => Nat.not_lt_zero _ h.1
  · rw [Nat.zero_add, Nat.one_mul]
    decide +kernel
  · apply clearBreak_of_length_le
    have : (DishFilter.matching Platform.plain {} (twoDishes {}).db casa.id).length = 2 := by
      decide +kernel
    omega

/-- The world after Ana created a second dish in her category, in the microsecond of the first. -/
def dishesAtOnce : World := runEvents Platform.plain sopaServed [
  .request (.admin 1 (.dishCreate
    { categoryId := 20, name := ⟨"Paella", by decide⟩, price := ⟨⟨9, 0⟩, by decide⟩ } 31))]

/-- A server that returns the rows of the second page in reverse. -/
def secondReversed (offset : ℕ) : Scan Dish :=
  if offset = 1 then ⟨List.reverse, List.reverse_perm⟩ else Scan.stored Dish

/-- The two dishes share position and creation time. In pages of one, the first dish is read
twice and the second never. -/
theorem DishService.paging_repeats_dish :
    (DishFilter.matching Platform.plain {} dishesAtOnce.db 10).map
        (fun d => (d.id, d.position.val, d.createdAt)) = [(30, 0, 0), (31, 0, 0)] ∧
      ∃ pages, PageSequence Platform.plain 1 {} 1 dishesAtOnce secondReversed 0 pages ∧
        (pages.flatMap (·.items)).map (·.id) = [30, 30] := by
  refine ⟨by decide +kernel, _, (pageSequence_iff (r := casa) (by decide +kernel)
    (fun _ h => by cases h) le_rfl (by decide)
      (DishFilter.pagesTaken_all (by decide +kernel))).mpr rfl, by decide +kernel⟩

end LiveMenu
