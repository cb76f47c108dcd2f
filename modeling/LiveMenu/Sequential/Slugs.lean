import Mathlib.Data.List.Dedup
import Mathlib.Data.Fintype.Card
import LiveMenu.Sequential.Repositories

/-!
# The search for a free slug

The candidates for a slug are the base slug, then `base-1`, `base-2`, and so on. The search returns
the first one that no other restaurant has, and it ends: there are more candidates than
restaurants.
-/

namespace LiveMenu

/-! ### Characters of a slug -/

lemma mem_of_mem_collapseHyphens {s : List Char} {c : Char} (h : c ∈ collapseHyphens s) :
    c ∈ s := by
  induction s with
  | nil => cases h
  | cons a s ih =>
    rw [collapseHyphens] at h
    split_ifs at h with ha
    · exact List.mem_cons_of_mem a (ih h)
    · rcases List.mem_cons.mp h with rfl | h
      · exact List.mem_cons_self
      · exact List.mem_cons_of_mem a (ih h)

lemma mem_of_mem_rstripHyphens {s : List Char} {c : Char} (h : c ∈ rstripHyphens s) : c ∈ s := by
  rw [rstripHyphens, List.mem_reverse] at h
  exact List.mem_reverse.mp ((List.dropWhile_suffix _).subset h)

lemma mem_of_mem_stripHyphens {s : List Char} {c : Char} (h : c ∈ stripHyphens s) : c ∈ s :=
  (List.dropWhile_suffix _).subset (mem_of_mem_rstripHyphens h)

lemma length_rstripHyphens_le (s : List Char) : (rstripHyphens s).length ≤ s.length := by
  rw [rstripHyphens, List.length_reverse]
  exact (List.dropWhile_suffix _).length_le.trans_eq List.length_reverse

/-- A generated slug has only letters, digits, hyphens and periods. -/
lemma isSlugChar_of_mem_generateSlug {text : String} {n : ℕ} {c : Char}
    (h : c ∈ (generateSlug text n).toList) : isSlugChar c = true := by
  rw [generateSlug] at h
  simp only [String.toList_ofList] at h
  have key : ∀ {s : List Char}, c ∈ stripHyphens (collapseHyphens (s.filter isSlugChar)) →
      isSlugChar c = true := fun h =>
    (List.mem_filter.mp (mem_of_mem_collapseHyphens (mem_of_mem_stripHyphens h))).2
  split_ifs at h
  · exact key (List.mem_of_mem_take (mem_of_mem_rstripHyphens h))
  · exact key h

lemma length_generateSlug_le (text : String) (n : ℕ) : (generateSlug text n).length ≤ n := by
  rw [generateSlug]
  simp only [String.length_ofList]
  split_ifs with h
  · exact (length_rstripHyphens_le _).trans (List.length_take_le _ _)
  · exact not_lt.mp h

/-! ### Candidates -/

/-- The slugs the search tries, in order. -/
def slugCandidate (baseSlug : String) : ℕ → String
  | 0      => baseSlug
  | k + 1  => suffixed baseSlug (k + 1)

lemma suffixed_toList (baseSlug : String) (k : ℕ) :
    (suffixed baseSlug k).toList = baseSlug.toList ++ '-' :: Nat.toDigits 10 k := by
  simp [suffixed, String.toList_append]

lemma slugCandidate_injective (baseSlug : String) :
    Function.Injective (slugCandidate baseSlug) := by
  intro j k h
  have h := congrArg String.toList h
  cases j with
  | zero =>
    cases k with
    | zero => rfl
    | succ k => simp [slugCandidate, suffixed_toList] at h
  | succ j =>
    cases k with
    | zero => simp [slugCandidate, suffixed_toList] at h
    | succ k =>
      simp only [slugCandidate, suffixed_toList, List.append_cancel_left_eq, List.cons.injEq,
        true_and] at h
      calc
        j + 1 = Nat.ofDigitChars 10 (Nat.toDigits 10 (j + 1)) 0 :=
          Nat.ofDigitChars_ten_toDigits.symm
        _ = Nat.ofDigitChars 10 (Nat.toDigits 10 (k + 1)) 0 := by rw [h]
        _ = k + 1 := Nat.ofDigitChars_ten_toDigits

/-- A candidate has the characters of its base, a hyphen and decimal digits. -/
lemma mem_or_isSlugChar_of_mem_slugCandidate {baseSlug : String} {k : ℕ} {c : Char}
    (h : c ∈ (slugCandidate baseSlug k).toList) : c ∈ baseSlug.toList ∨ isSlugChar c = true := by
  cases k with
  | zero => exact .inl h
  | succ k =>
    rw [slugCandidate, suffixed_toList, List.mem_append, List.mem_cons] at h
    rcases h with h | rfl | h
    · exact .inl h
    · exact .inr (by decide)
    · have hdigit := Nat.isDigit_of_mem_toDigits (by decide) (by decide) h
      simp only [Char.isDigit, Bool.and_eq_true, decide_eq_true_eq] at hdigit
      have hdigit : ('0' ≤ c && c ≤ '9') = true := by
        simpa using ⟨hdigit.1, hdigit.2⟩
      exact .inr (by simp [isSlugChar, hdigit])

/-- No character but those of slugs is in a candidate for a generated one. -/
lemma not_mem_slugCandidate {c : Char} (hc : isSlugChar c = false) (name : String) (k : ℕ) :
    c ∉ (slugCandidate (generateSlug name) k).toList := by
  intro h
  rcases mem_or_isSlugChar_of_mem_slugCandidate h with h | h
  · rw [isSlugChar_of_mem_generateSlug h] at hc
    cases hc
  · rw [h] at hc
    cases hc

lemma nul_not_mem_generateSlug (name : String) : nul ∉ (generateSlug name).toList :=
  not_mem_slugCandidate (by decide) name 0

lemma nul_not_mem_slugCandidate {baseSlug : String} (h : nul ∉ baseSlug.toList) (k : ℕ) :
    nul ∉ (slugCandidate baseSlug k).toList := fun hmem =>
  (mem_or_isSlugChar_of_mem_slugCandidate hmem).elim h (by decide)

/-- A candidate is as long as its base, a hyphen and its decimal digits. -/
lemma length_slugCandidate_le (baseSlug : String) {k e : ℕ} (h : k < 10 ^ (e + 1)) :
    (slugCandidate baseSlug k).length ≤ baseSlug.length + 1 + (e + 1) := by
  cases k with
  | zero =>
    simp only [slugCandidate]
    omega
  | succ k =>
    have hd := (Nat.length_toDigits_le_iff (n := k + 1) (b := 10) (by omega) e.succ_pos).mpr h
    rw [slugCandidate, ← String.length_toList, suffixed_toList, List.length_append,
      List.length_cons, String.length_toList]
    omega

/-! ### Taken slugs -/

namespace Tables

variable (t : Tables)

/-- A restaurant other than `excludeId` has the slug. -/
def SlugTaken (slug : String) (excludeId : Option Uuid) : Prop :=
  ∃ r ∈ t.restaurants, r.slug.val = slug ∧ excludeId ≠ some r.id

/-- The `k`-th candidate is the first one that is free. -/
def FirstFree (baseSlug : String) (excludeId : Option Uuid) (k : ℕ) : Prop :=
  ¬ t.SlugTaken (slugCandidate baseSlug k) excludeId ∧
    ∀ j < k, t.SlugTaken (slugCandidate baseSlug j) excludeId

variable {t}

/-- Distinct candidates need distinct restaurants. -/
lemma le_length_of_slugTaken {baseSlug : String} {excludeId : Option Uuid} {n : ℕ}
    (h : ∀ j < n, t.SlugTaken (slugCandidate baseSlug j) excludeId) :
    n ≤ t.restaurants.length := by
  let slugs : Finset String := (t.restaurants.map (·.slug.val)).toFinset
  have hsub : (Finset.range n).image (slugCandidate baseSlug) ⊆ slugs := by
    intro s hs
    obtain ⟨j, hj, rfl⟩ := Finset.mem_image.mp hs
    obtain ⟨r, hr, hslug, -⟩ := h j (Finset.mem_range.mp hj)
    exact List.mem_toFinset.mpr (List.mem_map.mpr ⟨r, hr, hslug⟩)
  calc
    n = ((Finset.range n).image (slugCandidate baseSlug)).card := by
      rw [Finset.card_image_of_injective _ (slugCandidate_injective baseSlug), Finset.card_range]
    _ ≤ slugs.card := Finset.card_le_card hsub
    _ ≤ (t.restaurants.map (·.slug.val)).length := List.toFinset_card_le _
    _ = t.restaurants.length := List.length_map _

lemma FirstFree.le_length {baseSlug : String} {excludeId : Option Uuid} {k : ℕ}
    (h : t.FirstFree baseSlug excludeId k) : k ≤ t.restaurants.length :=
  le_length_of_slugTaken h.2

lemma exists_firstFree (t : Tables) (baseSlug : String) (excludeId : Option Uuid) :
    ∃ k, t.FirstFree baseSlug excludeId k := by
  classical
  have hfree : ∃ k, ¬ t.SlugTaken (slugCandidate baseSlug k) excludeId := by
    by_contra hall
    have := le_length_of_slugTaken (n := t.restaurants.length + 1)
      fun j _ => not_not.mp (not_exists.mp hall j)
    omega
  exact ⟨Nat.find hfree, Nat.find_spec hfree, fun j hj => not_not.mp (Nat.find_min hfree hj)⟩

lemma FirstFree.unique {baseSlug : String} {excludeId : Option Uuid} {j k : ℕ}
    (hj : t.FirstFree baseSlug excludeId j) (hk : t.FirstFree baseSlug excludeId k) : j = k := by
  rcases Nat.lt_trichotomy j k with h | h | h
  · exact absurd (hk.2 j h) hj.1
  · exact h
  · exact absurd (hj.2 k h) hk.1

end Tables

/-- There are no more restaurants than primary keys. -/
lemma Database.length_restaurants_le (db : Database) : db.restaurants.length ≤ 2 ^ 128 := by
  have hnd : (db.restaurants.map fun r => r.id.toFin).Nodup := by
    have := db.valid.restaurantId.map (f := BitVec.toFin) fun a b h => BitVec.toFin_inj.mp h
    rwa [List.map_map] at this
  simpa using List.Nodup.length_le_card hnd

lemma Database.slugVal_nodup (db : Database) : (db.restaurants.map (·.slug.val)).Nodup := by
  have := db.valid.restaurantSlug.map (f := Varchar.val) fun a b h => by
    cases a
    cases b
    cases h
    rfl
  rwa [List.map_map] at this

/-- With distinct slugs, the restaurant the lookup finds is the only one with the slug. -/
lemma slugIsFree_get (db : Database) (slug : String) (excludeId : Option Uuid) :
    RestaurantService.slugIsFree (Rows.get (·.slug.val) slug db.restaurants) excludeId = true ↔
      ¬ db.SlugTaken slug excludeId := by
  cases hget : Rows.get (·.slug.val) slug db.restaurants with
  | none =>
    simp only [RestaurantService.slugIsFree, true_iff]
    rintro ⟨r, hr, hs, -⟩
    exact Rows.get_eq_none.mp hget r hr hs
  | some r =>
    have hslug := Rows.get_key hget
    simp only [RestaurantService.slugIsFree, beq_iff_eq]
    constructor
    · rintro rfl ⟨r', hr', hs, hne⟩
      have := Rows.eq_of_key_eq db.slugVal_nodup hr' (Rows.get_mem hget) (hs.trans hslug.symm)
      exact hne (by rw [this])
    · intro hfree
      by_contra hne
      exact hfree ⟨r, Rows.get_mem hget, hslug, hne⟩

/-! ### The search -/

namespace RestaurantRepository

variable {β : Type} (w : World) {slug : String}

/-- A lookup by a text that PostgreSQL takes. -/
lemma exec_getBySlug_bind (h : nul ∉ slug.toList) (k : Option Restaurant → Async β) :
    (getBySlug slug >>= k).exec w = (k (Rows.get (·.slug.val) slug w.db.restaurants)).exec w := by
  apply Async.exec_selectBound_bind_ok
  rw [PgText.ofString, dif_pos h]
  rfl

/-- A lookup by a text with a NUL. -/
lemma exec_getBySlug_bind_refused (h : nul ∈ slug.toList) (k : Option Restaurant → Async β) :
    (getBySlug slug >>= k).exec w = (.error (.db .data), w) := by
  apply Async.exec_selectBound_bind_error
  rw [PgText.ofString, dif_neg (not_not.mpr h)]
  rfl

end RestaurantRepository

namespace RestaurantService

variable (w : World) (baseSlug : String) (excludeId : Option Uuid)

section

variable (hbase : nul ∉ baseSlug.toList)
include hbase

lemma searchSlug_cases (fuel : ℕ) (counter : ℕ)
    (htaken : ∀ j < counter + 1, w.db.SlugTaken (slugCandidate baseSlug j) excludeId) :
    (∃ k, w.db.FirstFree baseSlug excludeId k ∧
      (searchSlug baseSlug excludeId fuel (counter + 1)).exec w
        = (.ok (slugCandidate baseSlug k), w)) ∨
      (∀ j < counter + 1 + fuel, w.db.SlugTaken (slugCandidate baseSlug j) excludeId) ∧
        (searchSlug baseSlug excludeId fuel (counter + 1)).exec w = (.error .unfinished, w) := by
  induction fuel generalizing counter with
  | zero => exact .inr ⟨htaken, rfl⟩
  | succ fuel ih =>
    have hnul : nul ∉ (suffixed baseSlug (counter + 1)).toList :=
      nul_not_mem_slugCandidate hbase (counter + 1)
    simp only [searchSlug, RestaurantRepository.exec_getBySlug_bind w hnul]
    by_cases hfree : slugIsFree
        (Rows.get (·.slug.val) (suffixed baseSlug (counter + 1)) w.db.restaurants) excludeId = true
    · rw [if_pos hfree]
      exact .inl ⟨counter + 1, ⟨(slugIsFree_get w.db _ _).mp hfree, htaken⟩, rfl⟩
    · rw [if_neg hfree]
      have hnow : w.db.SlugTaken (slugCandidate baseSlug (counter + 1)) excludeId :=
        not_not.mp fun h => hfree ((slugIsFree_get w.db _ _).mpr h)
      have := ih (counter + 1) fun j hj => by
        rcases Nat.lt_succ_iff_lt_or_eq.mp hj with hj | rfl
        · exact htaken j hj
        · exact hnow
      rwa [show counter + 1 + (fuel + 1) = counter + 1 + 1 + fuel by omega]

/-- The search returns the first free candidate, or the fuel ends with every candidate taken. -/
lemma ensureUniqueSlug_cases (fuel : ℕ) :
    (∃ k, w.db.FirstFree baseSlug excludeId k ∧
      (ensureUniqueSlug fuel baseSlug excludeId).exec w = (.ok (slugCandidate baseSlug k), w)) ∨
      (∀ j < fuel + 1, w.db.SlugTaken (slugCandidate baseSlug j) excludeId) ∧
        (ensureUniqueSlug fuel baseSlug excludeId).exec w = (.error .unfinished, w) := by
  simp only [ensureUniqueSlug, RestaurantRepository.exec_getBySlug_bind w hbase]
  by_cases hfree : slugIsFree (Rows.get (·.slug.val) baseSlug w.db.restaurants) excludeId = true
  · rw [if_pos hfree]
    exact .inl ⟨0, ⟨(slugIsFree_get w.db _ _).mp hfree, fun j hj => absurd hj (Nat.not_lt_zero j)⟩,
      rfl⟩
  · rw [if_neg hfree]
    have hnow : w.db.SlugTaken (slugCandidate baseSlug 0) excludeId :=
      not_not.mp fun h => hfree ((slugIsFree_get w.db _ _).mpr h)
    have := searchSlug_cases w baseSlug excludeId hbase fuel 0 fun j hj => by
      rwa [Nat.lt_one_iff.mp hj]
    rwa [show fuel + 1 = 0 + 1 + fuel by omega]

/-- With as much fuel as there are restaurants the search ends. -/
lemma exec_ensureUniqueSlug {fuel : ℕ} (hfuel : w.db.restaurants.length ≤ fuel) :
    ∃ k, w.db.FirstFree baseSlug excludeId k ∧
      (ensureUniqueSlug fuel baseSlug excludeId).exec w = (.ok (slugCandidate baseSlug k), w) := by
  rcases ensureUniqueSlug_cases w baseSlug excludeId hbase fuel with h | ⟨htaken, -⟩
  · exact h
  · exact absurd (Tables.le_length_of_slugTaken htaken) (by omega)

end

end RestaurantService

/-- The slug of a restaurant always fits its column. -/
lemma Tables.FirstFree.length_le {db : Database} {name : String} {excludeId : Option Uuid} {k : ℕ}
    (h : db.FirstFree (generateSlug name) excludeId k) :
    (slugCandidate (generateSlug name) k).length ≤ 150 := by
  have hk : k < 10 ^ (38 + 1) := by
    have h1 := h.le_length
    have h2 := db.length_restaurants_le
    omega
  have h1 := length_slugCandidate_le (generateSlug name) hk
  have h2 := length_generateSlug_le name 100
  omega

end LiveMenu
