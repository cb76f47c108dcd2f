import LiveMenu.Dishes.Listing
import LiveMenu.Model.Requests

/-!
# Searching the dishes

The search filter writes the text of the client into a `LIKE` pattern as it is, so `%`, `_` and
backslash in it are read as a pattern. It finds the text itself exactly where the text has none
of them, or where no stored text can tell the difference.
-/

namespace LiveMenu

/-- The text occurs in `s`, ignoring case. -/
def OccursIn (lower : Char → Char) (q s : String) : Prop :=
  q.toList.map lower <:+: s.toList.map lower

instance (lower : Char → Char) (q s : String) : Decidable (OccursIn lower q s) :=
  inferInstanceAs (Decidable (_ <:+: _))

/-- Lower case leaves the characters of a pattern alone, and makes no letter one of them. -/
def Platform.LowersLetters (P : Platform) : Prop :=
  ∀ s, IsWildcard s → ∀ c, P.pgLower c = s ↔ c = s

/-- No dish tells the filter for `q` from a search for `q` itself: `q` has no pattern character,
or no stored text matches its pattern, because the shortest match is too long. -/
def SearchesLiterally (q : String) : Prop :=
  (∀ c ∈ q.toList, ¬ IsWildcard c) ∨ 300 < (shortestMatch 'x' q.toList).length

lemma not_isWildcard_of_all {s : String}
    (h : (s.toList.all fun c => !decide (IsWildcard c)) = true) :
    ∀ c ∈ s.toList, ¬ IsWildcard c := by
  intro c hc
  have := List.all_eq_true.mp h c hc
  rw [Bool.not_eq_true', decide_eq_false_iff_not] at this
  exact this

namespace Platform.LowersLetters

variable {P : Platform} (hP : P.LowersLetters)
include hP

lemma isWildcard_iff (c : Char) : IsWildcard (P.pgLower c) ↔ IsWildcard c := by
  rw [IsWildcard, hP _ (.inl rfl), hP _ (.inr (.inl rfl)), hP _ (.inr (.inr rfl))]
  rfl

/-- The shortest match in lower case. -/
lemma map_shortestMatch (x : Char) (p : List Char) :
    (shortestMatch x p).map P.pgLower = shortestMatch (P.pgLower x) (p.map P.pgLower) := by
  have hfix : ∀ {s}, IsWildcard s → P.pgLower s = s := fun h => (hP _ h _).mpr rfl
  have hpercent : P.pgLower '%' = '%' := hfix (.inl rfl)
  have hunderscore : P.pgLower '_' = '_' := hfix (.inr (.inl rfl))
  have hescape : P.pgLower '\\' = '\\' := hfix (.inr (.inr rfl))
  induction p using pattern_induction with
  | nil => rfl
  | escape =>
    rw [List.map_singleton, hescape]
    exact congrArg (· :: []) hpercent
  | escaped c p ih => simp [ih, hescape]
  | percent p ih => simp [ih, hpercent]
  | underscore p ih => simp [ih, hunderscore]
  | literal c p hc ih =>
    rw [shortestMatch_cons hc, List.map_cons, List.map_cons,
      shortestMatch_cons (fun h => hc ((hP.isWildcard_iff c).mp h)), ih]

lemma ilike_eq (q : String) (s : List Char) :
    ilike P.pgLower (searchPattern q).toList s
      = like ('%' :: q.toList.map P.pgLower ++ ['%']) (s.map P.pgLower) := by
  have hpercent : P.pgLower '%' = '%' := (hP _ (.inl rfl) _).mpr rfl
  simp [ilike, searchPattern, hpercent]

/-- On a stored text such a `q` is searched for itself. -/
lemma ilike_iff_occursIn {n : ℕ} (hn : n ≤ 300) (s : Varchar n) {q : String}
    (hq : SearchesLiterally q) :
    ilike P.pgLower (searchPattern q).toList s.val.toList = true ↔ OccursIn P.pgLower q s.val := by
  rw [hP.ilike_eq, OccursIn]
  have hlength := s.fits.1
  rw [← String.length_toList] at hlength
  rcases hq with hplain | hlong
  · refine like_infix ?_ _
    intro c hc
    obtain ⟨a, ha, rfl⟩ := List.mem_map.mp hc
    rw [hP.isWildcard_iff]
    exact hplain a ha
  · rw [← List.length_map P.pgLower, hP.map_shortestMatch] at hlong
    rw [← List.length_map P.pgLower] at hlength
    refine iff_of_false ?_ ?_
    · intro h
      obtain ⟨t, ht, h⟩ := like_percent.mp h
      have := (shortestMatch_le_of_like (x := P.pgLower 'x') h).trans ht.length_le
      omega
    · intro h
      have := (shortestMatch_length_le (P.pgLower 'x') _).trans h.length_le
      omega

/-- The shortest match of any other `q` is a stored text that matches and where `q` does not
occur. -/
lemma exists_match {q : String} (hnul : nul ∉ q.toList) (hq : ¬ SearchesLiterally q) :
    ∃ s : Varchar 300, ilike P.pgLower (searchPattern q).toList s.val.toList = true ∧
      ¬ OccursIn P.pgLower q s.val := by
  simp only [SearchesLiterally, not_or, not_forall, not_not, not_lt] at hq
  obtain ⟨⟨c, hc, hwild⟩, hlength⟩ := hq
  have hlower : ∃ c ∈ q.toList.map P.pgLower, IsWildcard c :=
    ⟨_, List.mem_map_of_mem hc, (hP.isWildcard_iff c).mpr hwild⟩
  have hx : P.pgLower 'x' ≠ '_' := fun h =>
    absurd ((hP '_' (.inr (.inl rfl)) 'x').mp h) (by decide)
  have hstored : nul ∉ shortestMatch 'x' q.toList := by
    intro h
    rcases mem_of_mem_shortestMatch h with h | h | h
    · exact hnul h
    · exact absurd h (by decide)
    · exact absurd h (by decide)
  refine ⟨⟨String.ofList (shortestMatch 'x' q.toList), ?_⟩, ?_, ?_⟩
  · rw [← String.length_toList, String.toList_ofList]
    exact ⟨hlength, hstored⟩
  · rw [hP.ilike_eq, String.toList_ofList, hP.map_shortestMatch]
    exact like_percent.mpr ⟨_, List.suffix_rfl, like_shortestMatch _ _⟩
  · rw [OccursIn, String.toList_ofList, hP.map_shortestMatch]
    exact not_infix_shortestMatch hx hlower

/-- A text with a pattern character occurs in no text without. -/
lemma not_occursIn {q s : String} (hq : ∃ c ∈ q.toList, IsWildcard c)
    (hs : ∀ c ∈ s.toList, ¬ IsWildcard c) : ¬ OccursIn P.pgLower q s := by
  intro h
  obtain ⟨c, hc, hwild⟩ := hq
  obtain ⟨a, ha, heq⟩ := List.mem_map.mp (h.subset (List.mem_map_of_mem hc))
  exact hs a ha ((hP.isWildcard_iff a).mp (heq ▸ (hP.isWildcard_iff c).mpr hwild))

end Platform.LowersLetters

/-- A dish with the given description. -/
def dishDescribed (description : Varchar 300) : Dish where
  id := 30
  categoryId := 20
  name := ⟨"Plato", by decide⟩
  description := some description
  price := ⟨13, by decide +kernel⟩
  salePrice := none
  imageUrl := none
  available := true
  featured := false
  tags := none
  position := ⟨3, by decide⟩
  createdAt := 0
  updatedAt := 0
  deletedAt := none

/-- The search filter can be bound and selects, for each dish, exactly if the text occurs in its
name or its description, ignoring case, if and only if the text has no NUL and either no pattern
character or no stored text that can tell the difference. -/
theorem DishFilter.searchFilter_finds_text_iff (P : Platform) (hP : P.LowersLetters)
    (q : String) :
    (∃ selects, searchFilter P q = .ok selects ∧ ∀ d : Dish, selects d = true ↔
      OccursIn P.pgLower q d.name.val ∨ ∃ s ∈ d.description, OccursIn P.pgLower q s.val) ↔
    nul ∉ q.toList ∧ SearchesLiterally q := by
  constructor
  · rintro ⟨selects, hbound, h⟩
    have hnul : nul ∉ q.toList := by
      intro hnul
      rw [searchFilter_of_nul P hnul] at hbound
      cases hbound
    rw [searchFilter_of_not_nul P hnul] at hbound
    cases hbound
    refine ⟨hnul, ?_⟩
    by_contra hq
    obtain ⟨s, hmatch, hoccurs⟩ := hP.exists_match hnul hq
    rcases (h (dishDescribed s)).mp ((Dish.found_iff ..).mpr (.inr ⟨s, rfl, hmatch⟩))
      with hname | ⟨s', hs', hdescription⟩
    · simp only [SearchesLiterally, not_or, not_forall, not_not] at hq
      obtain ⟨⟨c, hc, hwild⟩, -⟩ := hq
      refine hP.not_occursIn ⟨c, hc, hwild⟩ (not_isWildcard_of_all ?_) hname
      show ("Plato".toList.all fun c => !decide (IsWildcard c)) = true
      decide +kernel
    · obtain rfl := Option.mem_some_iff.mp hs'
      exact hoccurs hdescription
  · rintro ⟨hnul, hq⟩
    refine ⟨_, searchFilter_of_not_nul P hnul, fun d => ?_⟩
    rw [Dish.found_iff, hP.ilike_iff_occursIn (by decide) d.name hq]
    simp only [hP.ilike_iff_occursIn le_rfl _ hq]

lemma Platform.plain_lowersLetters : Platform.plain.LowersLetters := fun _ _ _ => Iff.rfl

/-- A description in which a text without pattern characters occurs is found. -/
theorem DishFilter.searchFilter_finds_sopa :
    ∃ selects, searchFilter Platform.plain "sopa" = .ok selects ∧
      selects (dishDescribed ⟨"con sopa", by decide⟩) = true := by
  obtain ⟨selects, hbound, h⟩ :=
    (searchFilter_finds_text_iff Platform.plain Platform.plain_lowersLetters "sopa").mpr
      ⟨by decide, .inl (not_isWildcard_of_all (by decide +kernel))⟩
  refine ⟨selects, hbound, (h _).mpr (.inr ⟨_, rfl, ?_⟩)⟩
  decide +kernel

/-- A search for the percent sign lists a dish without one. -/
theorem DishFilter.searchFilter_percent :
    ((DishService.listDishes Platform.plain 1 { searchQuery := some "%" } 20 0
      (Scan.stored Dish)).exec sopaServed).1.toOption.map
        (fun page => page.items.map fun d => (d.name.val, d.description)) =
          some [("Sopa", none)] ∧
      ¬ OccursIn Platform.plain.pgLower "%" "Sopa" := by
  decide +kernel

end LiveMenu
