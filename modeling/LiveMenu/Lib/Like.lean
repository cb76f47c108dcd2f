import Mathlib.Data.List.Infix
import Mathlib.Tactic.Common

/-!
# SQL patterns

`LIKE` with the default escape character: `%` matches any characters, `_` matches one, and a
backslash takes the next character literally.
-/

/-- `text LIKE pattern`. -/
def like : List Char → List Char → Bool
  | [], t               => t.isEmpty
  | ['\\'], _           => false
  | '\\' :: c :: p, t   => match t with | [] => false | a :: t => a == c && like p t
  | '%' :: p, t         => t.tails.any fun t' => like p t'
  | '_' :: p, t         => match t with | [] => false | _ :: t => like p t
  | c :: p, t           => match t with | [] => false | a :: t => a == c && like p t

/-- `text ILIKE pattern`: both sides in lower case. -/
def ilike (lower : Char → Char) (pattern text : List Char) : Bool :=
  like (pattern.map lower) (text.map lower)

example : like "%a_c%".toList "xabcx".toList = true := by decide
example : like "%50\\%%".toList "50 off".toList = false := by decide

/-! ### Texts without pattern characters -/

/-- `%`, `_` and the escape character. -/
def IsWildcard (c : Char) : Prop := c = '%' ∨ c = '_' ∨ c = '\\'

instance (c : Char) : Decidable (IsWildcard c) :=
  inferInstanceAs (Decidable (_ ∨ _))

lemma like_percent {p t : List Char} :
    like ('%' :: p) t = true ↔ ∃ t', t' <:+ t ∧ like p t' = true := by
  simp only [like, List.any_eq_true, List.mem_tails]

lemma like_cons {c : Char} (hc : ¬ IsWildcard c) (p t : List Char) :
    like (c :: p) t = true ↔ ∃ t', t = c :: t' ∧ like p t' = true := by
  simp only [IsWildcard, not_or] at hc
  obtain ⟨hpercent, hunderscore, hescape⟩ := hc
  cases t with
  | nil => simp [like, hescape]
  | cons a t => simp [like, hescape, and_comm]

/-- Before `%`, a text without pattern characters matches the texts it starts. -/
lemma like_starting {p : List Char} (hp : ∀ c ∈ p, ¬ IsWildcard c) (t : List Char) :
    like (p ++ ['%']) t = true ↔ p <+: t := by
  induction p generalizing t with
  | nil =>
    rw [List.nil_append, like_percent]
    exact iff_of_true ⟨[], List.nil_suffix, rfl⟩ List.nil_prefix
  | cons c p ih =>
    rw [List.cons_append, like_cons (hp c (.head _))]
    constructor
    · rintro ⟨t', rfl, h⟩
      exact List.cons_prefix_cons.mpr ⟨rfl, (ih (fun c hc => hp c (.tail _ hc)) t').mp h⟩
    · rintro ⟨t', rfl⟩
      exact ⟨p ++ t', rfl, (ih (fun c hc => hp c (.tail _ hc)) _).mpr (List.prefix_append ..)⟩

/-- Between two `%`, a text without pattern characters matches the texts it occurs in. -/
theorem like_infix {p : List Char} (hp : ∀ c ∈ p, ¬ IsWildcard c) (t : List Char) :
    like ('%' :: p ++ ['%']) t = true ↔ p <:+: t := by
  rw [List.cons_append, like_percent, List.infix_iff_prefix_suffix]
  simp only [like_starting hp, and_comm]

/-! ### The shortest match -/

/-- The pieces a pattern is read in. -/
@[elab_as_elim]
theorem pattern_induction {motive : List Char → Prop} (nil : motive [])
    (escape : motive ['\\']) (escaped : ∀ c p, motive p → motive ('\\' :: c :: p))
    (percent : ∀ p, motive p → motive ('%' :: p)) (underscore : ∀ p, motive p → motive ('_' :: p))
    (literal : ∀ c p, ¬ IsWildcard c → motive p → motive (c :: p)) (p : List Char) :
    motive p := by
  induction h : p.length using Nat.strong_induction_on generalizing p with
  | _ n ih =>
    subst h
    match p with
    | [] => exact nil
    | c :: p =>
      by_cases hc : IsWildcard c
      · rcases hc with rfl | rfl | rfl
        · exact percent p (ih _ (Nat.lt_succ_self _) p rfl)
        · exact underscore p (ih _ (Nat.lt_succ_self _) p rfl)
        · match p with
          | [] => exact escape
          | c :: p =>
            have hlt : p.length < (c :: p).length + 1 := by
              rw [List.length_cons]
              omega
            exact escaped c p (ih _ hlt p rfl)
      · exact literal c p hc (ih _ (Nat.lt_succ_self _) p rfl)

/-- The shortest text that a pattern followed by `%` matches, with `x` where any character does;
a backslash at the end takes that `%`. -/
def shortestMatch (x : Char) : List Char → List Char
  | []             => []
  | ['\\']         => ['%']
  | '\\' :: c :: p => c :: shortestMatch x p
  | '%' :: p       => shortestMatch x p
  | '_' :: p       => x :: shortestMatch x p
  | c :: p         => c :: shortestMatch x p

@[simp] lemma shortestMatch_escaped (x c : Char) (p : List Char) :
    shortestMatch x ('\\' :: c :: p) = c :: shortestMatch x p := rfl

@[simp] lemma shortestMatch_percent (x : Char) (p : List Char) :
    shortestMatch x ('%' :: p) = shortestMatch x p := rfl

@[simp] lemma shortestMatch_underscore (x : Char) (p : List Char) :
    shortestMatch x ('_' :: p) = x :: shortestMatch x p := rfl

lemma shortestMatch_cons {c : Char} (hc : ¬ IsWildcard c) (x : Char) (p : List Char) :
    shortestMatch x (c :: p) = c :: shortestMatch x p := by
  simp only [IsWildcard, not_or] at hc
  rw [shortestMatch.eq_def]
  split <;> simp_all

lemma like_shortestMatch (x : Char) (p : List Char) :
    like (p ++ ['%']) (shortestMatch x p) = true := by
  induction p using pattern_induction with
  | nil => rfl
  | escape => rfl
  | escaped c p ih => simp [like, ih]
  | percent p ih => exact like_percent.mpr ⟨_, List.suffix_rfl, ih⟩
  | underscore p ih => simp [like, ih]
  | literal c p hc ih =>
    rw [List.cons_append, like_cons hc, shortestMatch_cons hc]
    exact ⟨_, rfl, ih⟩

/-- No text is matched that is shorter. -/
lemma shortestMatch_le_of_like {x : Char} {p t : List Char} (h : like (p ++ ['%']) t = true) :
    (shortestMatch x p).length ≤ t.length := by
  induction p using pattern_induction generalizing t with
  | nil => exact Nat.zero_le _
  | escape =>
    cases t with
    | nil => simp [like] at h
    | cons a t => exact Nat.succ_le_succ (Nat.zero_le _)
  | escaped c p ih =>
    cases t with
    | nil => simp [like] at h
    | cons a t =>
      simp only [List.cons_append, like, Bool.and_eq_true] at h
      exact Nat.succ_le_succ (ih h.2)
  | percent p ih =>
    obtain ⟨t', ht', h⟩ := like_percent.mp h
    exact (ih h).trans ht'.length_le
  | underscore p ih =>
    cases t with
    | nil => simp [like] at h
    | cons a t => exact Nat.succ_le_succ (ih h)
  | literal c p hc ih =>
    rw [List.cons_append, like_cons hc] at h
    obtain ⟨t', rfl, h⟩ := h
    rw [shortestMatch_cons hc]
    exact Nat.succ_le_succ (ih h)

/-- A character that is no pattern character occurs in each match. -/
lemma mem_of_like {c : Char} (hc : ¬ IsWildcard c) {p t : List Char} (h : like p t = true)
    (hcp : c ∈ p) : c ∈ t := by
  induction p using pattern_induction generalizing t with
  | nil => cases hcp
  | escape => simp [like] at h
  | escaped a p ih =>
    cases t with
    | nil => simp [like] at h
    | cons b t =>
      simp only [like, Bool.and_eq_true, beq_iff_eq] at h
      obtain ⟨rfl, h⟩ := h
      rcases List.mem_cons.mp hcp with rfl | hcp
      · exact absurd (.inr (.inr rfl)) hc
      · exact (List.mem_cons.mp hcp).elim (fun h => h ▸ .head _) fun hcp => .tail _ (ih h hcp)
  | percent p ih =>
    obtain ⟨t', ht', h⟩ := like_percent.mp h
    rcases List.mem_cons.mp hcp with rfl | hcp
    · exact absurd (.inl rfl) hc
    · exact ht'.subset (ih h hcp)
  | underscore p ih =>
    cases t with
    | nil => simp [like] at h
    | cons b t =>
      rcases List.mem_cons.mp hcp with rfl | hcp
      · exact absurd (.inr (.inl rfl)) hc
      · exact .tail _ (ih h hcp)
  | literal a p ha ih =>
    rw [like_cons ha] at h
    obtain ⟨t', rfl, h⟩ := h
    exact (List.mem_cons.mp hcp).elim (fun h => h ▸ .head _) fun hcp => .tail _ (ih h hcp)

lemma shortestMatch_length_le (x : Char) (p : List Char) :
    (shortestMatch x p).length ≤ p.length := by
  induction p using pattern_induction with
  | nil => exact le_rfl
  | escape => exact le_rfl
  | escaped c p ih =>
    simp only [shortestMatch_escaped, List.length_cons]
    omega
  | percent p ih => exact Nat.le_succ_of_le ih
  | underscore p ih => exact Nat.succ_le_succ ih
  | literal c p hc ih =>
    rw [shortestMatch_cons hc]
    exact Nat.succ_le_succ ih

lemma mem_of_mem_shortestMatch {x c : Char} {p : List Char} (h : c ∈ shortestMatch x p) :
    c ∈ p ∨ c = x ∨ c = '%' := by
  induction p using pattern_induction with
  | nil => cases h
  | escape => exact .inr (.inr (List.mem_singleton.mp h))
  | escaped a p ih =>
    rcases List.mem_cons.mp h with rfl | h
    · exact .inl (.tail _ (.head _))
    · exact (ih h).imp_left fun h => .tail _ (.tail _ h)
  | percent p ih => exact (ih h).imp_left (.tail _)
  | underscore p ih =>
    rcases List.mem_cons.mp h with rfl | h
    · exact .inr (.inl rfl)
    · exact (ih h).imp_left (.tail _)
  | literal a p ha ih =>
    rw [shortestMatch_cons ha] at h
    rcases List.mem_cons.mp h with rfl | h
    · exact .inl (.head _)
    · exact (ih h).imp_left (.tail _)

/-- Only a pattern without pattern characters is its own shortest match. -/
lemma eq_shortestMatch {x : Char} (hx : x ≠ '_') {p : List Char} (h : shortestMatch x p = p) :
    ∀ c ∈ p, ¬ IsWildcard c := by
  induction p using pattern_induction with
  | nil =>
    intro c hc
    cases hc
  | escape => exact absurd (List.cons.inj h).1 (by decide)
  | escaped c p ih =>
    have := shortestMatch_length_le x p
    have hlen := congrArg List.length h
    simp only [shortestMatch_escaped, List.length_cons] at hlen
    omega
  | percent p ih =>
    have := shortestMatch_length_le x p
    have hlen := congrArg List.length h
    simp only [shortestMatch_percent, List.length_cons] at hlen
    omega
  | underscore p ih => exact absurd (List.cons.inj h).1 hx
  | literal c p hc ih =>
    rw [shortestMatch_cons hc] at h
    exact List.forall_mem_cons.mpr ⟨hc, ih (List.cons.inj h).2⟩

/-- A pattern with a pattern character does not occur in its shortest match. -/
theorem not_infix_shortestMatch {x : Char} (hx : x ≠ '_') {p : List Char}
    (hp : ∃ c ∈ p, IsWildcard c) : ¬ p <:+: shortestMatch x p := by
  intro h
  obtain ⟨c, hc, hwild⟩ := hp
  have heq := h.eq_of_length_le (shortestMatch_length_le x p)
  exact eq_shortestMatch hx heq.symm c hc hwild
