import Mathlib.Data.List.Chain
import Mathlib.Data.List.DropRight
import LiveMenu.Sequential.Slugs

/-!
# The grammar of slugs

What `generate_slug` returns has letters, digits, periods and single hyphens between them, and it
leaves every text of that form as it is.
-/

namespace LiveMenu

/-- Not both are hyphens. -/
def NotHyphens (c d : Char) : Prop := ¬ (c = '-' ∧ d = '-')

/-- Only `[a-z0-9.-]`, with no two hyphens in a row and none at either end. -/
structure SlugGrammar (s : List Char) : Prop where
  chars : ∀ c ∈ s, isSlugChar c = true
  single : s.IsChain NotHyphens
  first : s.head? ≠ some '-'
  last : s.getLast? ≠ some '-'

/-! ### Runs of hyphens -/

@[simp] lemma head?_collapseHyphens (s : List Char) : (collapseHyphens s).head? = s.head? := by
  induction s with
  | nil => rfl
  | cons c s ih =>
    rw [collapseHyphens]
    split_ifs with h
    · rw [ih, h.2, h.1, List.head?_cons]
    · simp

lemma isChain_collapseHyphens (s : List Char) : (collapseHyphens s).IsChain NotHyphens := by
  induction s with
  | nil => exact List.isChain_nil
  | cons c s ih =>
    rw [collapseHyphens]
    split_ifs with h
    · exact ih
    · rw [List.isChain_cons]
      refine ⟨?_, ih⟩
      rintro d hd ⟨rfl, rfl⟩
      rw [head?_collapseHyphens] at hd
      exact h ⟨rfl, hd⟩

lemma collapseHyphens_eq_self {s : List Char} (h : s.IsChain NotHyphens) :
    collapseHyphens s = s := by
  induction s with
  | nil => rfl
  | cons c s ih =>
    rw [List.isChain_cons] at h
    rw [collapseHyphens, if_neg fun hc => h.1 '-' hc.2 ⟨hc.1, rfl⟩, ih h.2]

/-! ### Hyphens at the ends -/

lemma isPrefix_rstripHyphens (s : List Char) : rstripHyphens s <+: s :=
  List.rdropWhile_prefix _ s

lemma getLast?_rstripHyphens (s : List Char) : (rstripHyphens s).getLast? ≠ some '-' := by
  intro h
  have hne : rstripHyphens s ≠ [] := by
    rintro hnil
    simp [hnil] at h
  rw [List.getLast?_eq_some_getLast hne] at h
  have hlast := List.rdropWhile_last_not (· = '-') s hne
  simp only [decide_eq_true_eq] at hlast
  exact hlast (Option.some.inj h)

lemma rstripHyphens_eq_self {s : List Char} (h : s.getLast? ≠ some '-') : rstripHyphens s = s := by
  apply List.rdropWhile_eq_self_iff.mpr
  intro hne
  rw [List.getLast?_eq_some_getLast hne] at h
  simpa using h

/-- A prefix starts as the text does. -/
lemma head?_of_isPrefix {s t : List Char} (h : s <+: t) {c : Char} (hc : s.head? = some c) :
    t.head? = some c := by
  obtain ⟨u, rfl⟩ := h
  rw [List.head?_append, hc, Option.some_or]

lemma isInfix_stripHyphens (s : List Char) : stripHyphens s <:+: s :=
  (isPrefix_rstripHyphens _).isInfix.trans (List.dropWhile_suffix _).isInfix

lemma head?_stripHyphens (s : List Char) : (stripHyphens s).head? ≠ some '-' := by
  intro h
  have hdrop := head?_of_isPrefix (isPrefix_rstripHyphens _) h
  have hnot := List.head?_dropWhile_not (· = '-') s
  simp [hdrop] at hnot

lemma stripHyphens_eq_self {s : List Char} (hfirst : s.head? ≠ some '-')
    (hlast : s.getLast? ≠ some '-') : stripHyphens s = s := by
  have hdrop : s.dropWhile (· = '-') = s := by
    cases s with
    | nil => rfl
    | cons c s =>
      have hc : c ≠ '-' := by simpa using hfirst
      rw [List.dropWhile_cons_of_neg (by simpa using hc)]
  rw [stripHyphens, hdrop, rstripHyphens_eq_self hlast]

/-! ### The passes -/

/-- The grammar has no uppercase letter. -/
lemma lowerChar_slugChar {c : Char} (h : isSlugChar c = true) : lowerChar c = [c] := by
  have hupper : ¬ ('A' ≤ c ∧ c ≤ 'Z') := by
    rintro ⟨hA, hZ⟩
    simp only [isSlugChar, Bool.or_eq_true, Bool.and_eq_true, decide_eq_true_eq,
      beq_iff_eq] at h
    rcases h with ((⟨ha, -⟩ | ⟨-, h9⟩) | rfl) | rfl
    · exact absurd (Char.le_trans ha hZ) (by decide)
    · exact absurd (Char.le_trans hA h9) (by decide)
    · exact absurd hA (by decide)
    · exact absurd hA (by decide)
  rw [lowerChar, if_neg, if_neg, if_neg hupper]
  · rintro rfl
    exact absurd h (by decide)
  · rintro rfl
    exact absurd h (by decide)

namespace SlugGrammar

variable {s : List Char}

lemma of_filter (s : List Char) :
    SlugGrammar (stripHyphens (collapseHyphens (s.filter isSlugChar))) where
  chars _ hc := (List.mem_filter.mp (mem_of_mem_collapseHyphens (mem_of_mem_stripHyphens hc))).2
  single := List.IsChain.infix (isChain_collapseHyphens _) (isInfix_stripHyphens _)
  first := head?_stripHyphens _
  last := getLast?_rstripHyphens _

/-- A truncation can end in a hyphen, which is stripped again. -/
lemma truncate (h : SlugGrammar s) (n : ℕ) : SlugGrammar (rstripHyphens (s.take n)) := by
  have hpre : rstripHyphens (s.take n) <+: s :=
    (isPrefix_rstripHyphens _).trans <| List.take_prefix n s
  constructor
  · intro c hc
    exact h.chars c (hpre.subset hc)
  · exact h.single.prefix hpre
  · intro hc
    exact h.first (head?_of_isPrefix hpre hc)
  · exact getLast?_rstripHyphens _

lemma lower_eq_self (h : SlugGrammar s) : lower s = s := by
  have hchar : ∀ c ∈ s, lowerChar c = [c] := fun c hc => lowerChar_slugChar (h.chars c hc)
  rw [lower, List.flatMap_congr hchar, List.flatMap_singleton']

lemma replace_eq_self (h : SlugGrammar s) :
    (s.map fun c => if c = ' ' ∨ c = '_' then '-' else c) = s := by
  conv_rhs => rw [← List.map_id s]
  apply List.map_congr_left
  intro c hc
  have hslug := h.chars c hc
  rw [if_neg, id]
  rintro (rfl | rfl) <;> simp [isSlugChar] at hslug

end SlugGrammar

lemma slugGrammar_generateSlug (text : String) (maxLength : ℕ) :
    SlugGrammar (generateSlug text maxLength).toList := by
  rw [generateSlug]
  simp only [String.toList_ofList]
  split_ifs with hlong
  · exact (SlugGrammar.of_filter _).truncate maxLength
  · exact SlugGrammar.of_filter _

lemma generateSlug_eq_self {text : String} (h : SlugGrammar text.toList) {maxLength : ℕ}
    (hlength : text.length ≤ maxLength) : generateSlug text maxLength = text := by
  have hfilter : text.toList.filter isSlugChar = text.toList := List.filter_eq_self.mpr h.chars
  have hshort : ¬ text.toList.length > maxLength := by
    rw [String.length_toList]
    exact not_lt.mpr hlength
  rw [generateSlug]
  simp only [h.lower_eq_self, h.replace_eq_self, hfilter, collapseHyphens_eq_self h.single,
    stripHyphens_eq_self h.first h.last, if_neg hshort, String.ofList_toList]

/-- A generated slug is within its length and in the grammar, and generation leaves what is so as it
is, a slug that it has generated among them. -/
theorem generateSlug_grammar (text : String) (maxLength : ℕ) :
    (generateSlug text maxLength).length ≤ maxLength ∧
      SlugGrammar (generateSlug text maxLength).toList ∧
      generateSlug (generateSlug text maxLength) maxLength = generateSlug text maxLength ∧
      (SlugGrammar text.toList → text.length ≤ maxLength → generateSlug text maxLength = text) := by
  have hlength := length_generateSlug_le text maxLength
  have hgrammar := slugGrammar_generateSlug text maxLength
  exact ⟨hlength, hgrammar, generateSlug_eq_self hgrammar hlength,
    fun h hl => generateSlug_eq_self h hl⟩

end LiveMenu
