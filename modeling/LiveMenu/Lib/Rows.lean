import Mathlib.Data.List.Basic
import Mathlib.Data.List.Nodup
import Mathlib.Tactic.Common

/-!
# Tables as lists of keyed rows

A table is a list of rows with a key column. `Rows.get` finds a row by key, `Rows.modify` rewrites
it in place; insertion is `++ [r]` and deletion is `List.filter`.
-/

namespace Rows

variable {κ ρ β : Type} [DecidableEq κ] {key : ρ → κ}

/-- The row with key `k`. -/
def get (key : ρ → κ) (k : κ) (rows : List ρ) : Option ρ := rows.find? fun r => key r = k

/-- Rewrite the row with key `k`. -/
def modify (key : ρ → κ) (k : κ) (f : ρ → ρ) (rows : List ρ) : List ρ :=
  rows.map fun r => if key r = k then f r else r

lemma get_mem {k : κ} {rows : List ρ} {r : ρ} (h : get key k rows = some r) : r ∈ rows :=
  List.mem_of_find?_eq_some h

lemma get_key {k : κ} {rows : List ρ} {r : ρ} (h : get key k rows = some r) : key r = k := by
  simpa using List.find?_some h

lemma get_eq_none {k : κ} {rows : List ρ} :
    get key k rows = none ↔ ∀ r ∈ rows, key r ≠ k := by
  simp [get]

lemma isSome_get {k : κ} {rows : List ρ} : (get key k rows).isSome ↔ ∃ r ∈ rows, key r = k := by
  simp [get]

/-- With distinct keys a row is the one found under its key. -/
lemma get_of_mem {rows : List ρ} {r : ρ} (hnd : (rows.map key).Nodup) (h : r ∈ rows) :
    get key (key r) rows = some r := by
  induction rows with
  | nil => cases h
  | cons a rows ih =>
    rw [List.map_cons, List.nodup_cons] at hnd
    rcases List.mem_cons.mp h with rfl | h
    · simp [get]
    · have hne : key a ≠ key r := fun he => hnd.1 (he ▸ List.mem_map_of_mem h)
      have := ih hnd.2 h
      simpa [get, hne] using this

lemma get_eq_some_iff {rows : List ρ} (hnd : (rows.map key).Nodup) {k : κ} {r : ρ} :
    get key k rows = some r ↔ r ∈ rows ∧ key r = k := by
  constructor
  · intro h
    exact ⟨get_mem h, get_key h⟩
  · rintro ⟨h, rfl⟩
    exact get_of_mem hnd h

lemma eq_of_key_eq {rows : List ρ} (hnd : (rows.map key).Nodup) {r r' : ρ} (h : r ∈ rows)
    (h' : r' ∈ rows) (hk : key r = key r') : r = r' := by
  have h1 := get_of_mem hnd h
  rw [hk, get_of_mem hnd h'] at h1
  exact (Option.some.inj h1).symm

/-- Rows are told apart by their keys, and so are lists of them. -/
lemma eq_of_map_key_eq {rows l l' : List ρ} (hnd : (rows.map key).Nodup)
    (h : ∀ r ∈ l, r ∈ rows) (h' : ∀ r ∈ l', r ∈ rows) (hk : l.map key = l'.map key) : l = l' := by
  induction l generalizing l' with
  | nil => exact (List.map_eq_nil_iff.mp hk.symm).symm
  | cons a l ih =>
    obtain ⟨b, m, rfl, hb, hm⟩ := List.map_eq_cons_iff.mp hk.symm
    rw [eq_of_key_eq hnd (h a (.head _)) (h' b (.head _)) hb.symm,
      ih (fun r hr => h r (.tail _ hr)) (fun r hr => h' r (.tail _ hr)) hm.symm]

lemma get_append {k : κ} {rows rows' : List ρ} {r : ρ} (h : get key k rows = some r) :
    get key k (rows ++ rows') = some r := by
  simp only [get, List.find?_append] at h ⊢
  rw [h]
  rfl

lemma get_filter {rows : List ρ} (hnd : (rows.map key).Nodup) (k : κ) (q : ρ → Bool) :
    get key k (rows.filter q) = (get key k rows).filter q := by
  have hnd' : ((rows.filter q).map key).Nodup := hnd.sublist (List.filter_sublist.map key)
  ext r
  simp only [Option.filter_eq_some_iff, get_eq_some_iff hnd, get_eq_some_iff hnd',
    List.mem_filter]
  tauto

/-- A lookup of a column sees no rewriting that keeps the keys and the column. -/
lemma map_get_map {g : ρ → β} {f : ρ → ρ} {rows : List ρ}
    (h : ∀ r ∈ rows, key (f r) = key r ∧ g (f r) = g r) (k : κ) :
    (get key k (rows.map f)).map g = (get key k rows).map g := by
  induction rows with
  | nil => rfl
  | cons a rows ih =>
    obtain ⟨hka, hga⟩ := h a List.mem_cons_self
    have ih := ih fun r hr => h r (List.mem_cons_of_mem a hr)
    simp only [get, List.map_cons, List.find?_cons, hka] at ih ⊢
    by_cases hk : key a = k
    · simp [hk, hga]
    · simpa [hk] using ih

lemma mem_modify {k : κ} {f : ρ → ρ} {rows : List ρ} {r : ρ} :
    r ∈ modify key k f rows ↔
      (r ∈ rows ∧ key r ≠ k) ∨ ∃ r' ∈ rows, key r' = k ∧ f r' = r := by
  simp only [modify, List.mem_map]
  constructor
  · rintro ⟨a, ha, rfl⟩
    split_ifs with hk
    · exact .inr ⟨a, ha, hk, rfl⟩
    · exact .inl ⟨ha, hk⟩
  · rintro (⟨h, hk⟩ | ⟨a, ha, hk, rfl⟩)
    · exact ⟨r, h, if_neg hk⟩
    · exact ⟨a, ha, if_pos hk⟩

/-- A column that the rewriting keeps is the same afterwards. -/
lemma map_modify {g : ρ → β} {k : κ} {f : ρ → ρ} {rows : List ρ}
    (h : ∀ r ∈ rows, key r = k → g (f r) = g r) :
    (modify key k f rows).map g = rows.map g := by
  rw [modify, List.map_map]
  apply List.map_congr_left
  intro r hr
  simp only [Function.comp_apply]
  split_ifs with hk
  · exact h r hr hk
  · rfl

/-- Rows outside a selection are rewritten outside it: the selection is the same afterwards. -/
lemma filter_map_eq {p : ρ → Bool} {f : ρ → ρ} {rows : List ρ}
    (h : ∀ r ∈ rows, f r = r ∨ p r = false ∧ p (f r) = false) :
    (rows.map f).filter p = rows.filter p := by
  induction rows with
  | nil => rfl
  | cons a rows ih =>
    have ih := ih fun r hr => h r (List.mem_cons_of_mem a hr)
    rw [List.map_cons]
    rcases h a List.mem_cons_self with ha | ⟨ha, hfa⟩
    · simp only [ha, List.filter_cons, ih]
    · rw [List.filter_cons_of_neg (by simp [hfa]), List.filter_cons_of_neg (by simp [ha]), ih]

lemma filter_modify {p : ρ → Bool} {k : κ} {f : ρ → ρ} {rows : List ρ}
    (h : ∀ r ∈ rows, key r = k → p r = false ∧ p (f r) = false) :
    (modify key k f rows).filter p = rows.filter p := by
  apply filter_map_eq
  intro r hr
  split_ifs with hk
  · exact .inr (h r hr hk)
  · exact .inl rfl

/-- Only rows outside a selection are deleted. -/
lemma filter_filter_eq {p q : ρ → Bool} {rows : List ρ}
    (h : ∀ r ∈ rows, p r = true → q r = true) : (rows.filter q).filter p = rows.filter p := by
  rw [List.filter_filter]
  apply List.filter_congr
  intro r hr
  cases hp : p r with
  | false => rfl
  | true => rw [h r hr hp]; rfl

lemma modify_congr {k : κ} {f g : ρ → ρ} {rows : List ρ}
    (h : ∀ r ∈ rows, key r = k → f r = g r) : modify key k f rows = modify key k g rows := by
  apply List.map_congr_left
  intro r hr
  split_ifs with hk
  · exact h r hr hk
  · rfl

lemma modify_eq_self {k : κ} {f : ρ → ρ} {rows : List ρ}
    (h : ∀ r ∈ rows, key r = k → f r = r) : modify key k f rows = rows := by
  have : modify key k f rows = rows.map id := by
    apply List.map_congr_left
    intro r hr
    split_ifs with hk
    · exact h r hr hk
    · rfl
  rw [this, List.map_id]

/-- With distinct keys only one row is rewritten. -/
lemma modify_eq_const {f : ρ → ρ} {rows : List ρ} {r : ρ} (hnd : (rows.map key).Nodup)
    (hr : r ∈ rows) : modify key (key r) f rows = modify key (key r) (fun _ => f r) rows :=
  modify_congr fun r' hr' hk => by rw [eq_of_key_eq hnd hr' hr hk]

lemma modify_const_self {rows : List ρ} {r : ρ} (hnd : (rows.map key).Nodup) (hr : r ∈ rows) :
    modify key (key r) (fun _ => r) rows = rows :=
  modify_eq_self fun _ hr' hk => (eq_of_key_eq hnd hr' hr hk).symm

/-- The rewritten row is the one found under its key, if keys are still distinct. -/
lemma get_modified {k : κ} {f : ρ → ρ} {rows rows' : List ρ} {r : ρ} (hnd : (rows'.map key).Nodup)
    (h : rows' = modify key k f rows) (hr : r ∈ rows) (hk : key r = k) (hf : key (f r) = k) :
    get key k rows' = some (f r) := by
  have hmem : f r ∈ rows' := h ▸ mem_modify.mpr (.inr ⟨r, hr, hk, rfl⟩)
  have := get_of_mem hnd hmem
  rwa [hf] at this

lemma nodup_map_append {g : ρ → β} {rows : List ρ} {r : ρ} (hg : (rows.map g).Nodup)
    (hr : g r ∉ rows.map g) : ((rows ++ [r]).map g).Nodup := by
  rw [List.map_append, List.map_singleton]
  exact List.nodup_append.mpr ⟨hg, List.nodup_singleton _, fun a ha b hb hab =>
    hr (List.mem_singleton.mp hb ▸ hab ▸ ha)⟩

/-- A column stays without duplicates if the value that is written stands nowhere else. -/
lemma nodup_map_modify {g : ρ → β} {k : κ} {f : ρ → ρ} {rows : List ρ} {b : β}
    (hkey : (rows.map key).Nodup) (hg : (rows.map g).Nodup)
    (hf : ∀ r ∈ rows, key r = k → g (f r) = b)
    (hb : ∀ r ∈ rows, key r ≠ k → g r ≠ b) : ((modify key k f rows).map g).Nodup := by
  rw [modify, List.map_map]
  refine List.Nodup.map_on (fun r hr r' hr' h => ?_) hkey.of_map
  simp only [Function.comp_apply] at h
  split_ifs at h with hk hk' hk'
  · exact eq_of_key_eq hkey hr hr' (hk.trans hk'.symm)
  · exact absurd (h.symm.trans (hf r hr hk)) (hb r' hr' hk')
  · exact absurd (h.trans (hf r' hr' hk')) (hb r hr hk)
  · exact List.inj_on_of_nodup_map hg hr hr' h

/-- A series of rewritings, row by row. -/
lemma foldl_modify {γ : Type} {k : γ → κ} {f : γ → ρ → ρ} (cs : List γ) (rows : List ρ) :
    cs.foldl (fun rows c => modify key (k c) (f c) rows) rows
      = rows.map fun r => cs.foldl (fun r c => if key r = k c then f c r else r) r := by
  induction cs generalizing rows with
  | nil => simp
  | cons c cs ih =>
    rw [List.foldl_cons, ih, modify, List.map_map]
    rfl

end Rows
