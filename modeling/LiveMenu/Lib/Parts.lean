import LiveMenu.Lib.Rows

/-!
# Tables in two parts

A property of the keys divides a table in two. What can be said of the keys, of all rows or of a row
that is looked up by its key can be said of the parts, and a selection from one part, or a rewriting
of its rows, has nothing to do with the other.
-/

namespace Rows

variable {κ ρ : Type} {key : ρ → κ}

/-- A key is that of a row on its side of the division. -/
lemma mem_map_filter {p : κ → Bool} {k : κ} (hk : p k = true)
    (rows : List ρ) : k ∈ (rows.filter fun r => p (key r)).map key ↔ k ∈ rows.map key := by
  constructor
  · intro h
    obtain ⟨r, hr, hkey⟩ := List.mem_map.mp h
    exact List.mem_map.mpr ⟨r, List.mem_of_mem_filter hr, hkey⟩
  · intro h
    obtain ⟨r, hr, rfl⟩ := List.mem_map.mp h
    exact List.mem_map.mpr ⟨r, List.mem_filter.mpr ⟨hr, hk⟩, rfl⟩

/-- Keys are distinct if they are on both sides of a division by keys. -/
lemma nodup_map_iff (p : κ → Bool) (rows : List ρ) :
    (rows.map key).Nodup ↔ ((rows.filter fun r => p (key r)).map key).Nodup ∧
      ((rows.filter fun r => !p (key r)).map key).Nodup := by
  have hperm := (List.filter_append_perm (fun r => p (key r)) rows).map key
  rw [← hperm.nodup_iff, List.map_append, List.nodup_append]
  refine ⟨fun h => ⟨h.1, h.2.1⟩, fun h => ⟨h.1, h.2, ?_⟩⟩
  rintro k hk _ hk' rfl
  obtain ⟨r, hr, rfl⟩ := List.mem_map.mp hk
  obtain ⟨r', hr', hkey⟩ := List.mem_map.mp hk'
  have hp := (List.mem_filter.mp hr).2
  have hp' := (List.mem_filter.mp hr').2
  rw [hkey, hp] at hp'
  cases hp'

/-- The rows with a property are those on both sides of a division. -/
lemma forall_mem_iff {q : ρ → Prop} (p : ρ → Bool) (rows : List ρ) :
    (∀ r ∈ rows, q r) ↔ (∀ r ∈ rows.filter p, q r) ∧ ∀ r ∈ rows.filter fun r => !p r, q r := by
  constructor
  · exact fun h => ⟨fun r hr => h r (List.mem_of_mem_filter hr),
      fun r hr => h r (List.mem_of_mem_filter hr)⟩
  · rintro ⟨h, h'⟩ r hr
    cases hp : p r with
    | true => exact h r (List.mem_filter.mpr ⟨hr, hp⟩)
    | false => exact h' r (List.mem_filter.mpr ⟨hr, by rw [hp, Bool.not_false]⟩)

/-- Rows with a key are looked up on the side of the division that the key is on. -/
lemma get_filter_key [DecidableEq κ] {p : κ → Bool} {k : κ}
    (hk : p k = true) (rows : List ρ) :
    get key k (rows.filter fun r => p (key r)) = get key k rows := by
  rw [get, get, List.find?_filter]
  congr 1
  funext r
  by_cases h : key r = k
  · simp [h, hk]
  · simp [h]

/-- A selection within equal parts. -/
lemma filter_eq_of_part {p q : ρ → Bool} {rows rows' : List ρ}
    (h : rows'.filter p = rows.filter p) (hq : ∀ r ∈ rows, q r = true → p r = true)
    (hq' : ∀ r ∈ rows', q r = true → p r = true) : rows'.filter q = rows.filter q := by
  rw [← filter_filter_eq hq', h, filter_filter_eq hq]

/-- What is looked for is only in a part. -/
lemma any_filter_part {p q : ρ → Bool} {rows : List ρ}
    (h : ∀ r, q r = true → p r = true) : rows.any q = (rows.filter p).any q := by
  rw [List.any_filter]
  congr 1
  funext r
  cases hq : q r with
  | true => rw [h r hq, Bool.and_true]
  | false => rw [Bool.and_false]

/-- Selections from tables with equal parts have equal parts. -/
lemma filter_filter_part {p : ρ → Bool} {q q' : ρ → Bool} {rows rows' : List ρ}
    (h : rows'.filter p = rows.filter p) (hq : ∀ r ∈ rows.filter p, q' r = q r) :
    (rows'.filter q').filter p = (rows.filter q).filter p := by
  rw [List.filter_comm p q', List.filter_comm p q, h]
  exact List.filter_congr hq

/-- Rows that are rewritten under their keys stay on their side of a division. -/
lemma filter_map_part {p : κ → Bool} {f : ρ → ρ}
    (hf : ∀ r, key (f r) = key r) (rows : List ρ) :
    (rows.map f).filter (fun r => p (key r)) = (rows.filter fun r => p (key r)).map f := by
  rw [List.filter_map]
  congr 1
  exact List.filter_congr fun r _ => by simp [hf]

/-- Rows that are rewritten on one side of a division leave the other side alone. -/
lemma filter_modify_other [DecidableEq κ] {p : κ → Bool} {k : κ}
    {f : ρ → ρ} (hk : p k = false) (hf : ∀ r, key (f r) = key r) (rows : List ρ) :
    (modify key k f rows).filter (fun r => p (key r)) = rows.filter fun r => p (key r) :=
  filter_modify fun r _ hid => ⟨by rw [hid, hk], by rw [hf, hid, hk]⟩

/-- Equal parts are rewritten alike. -/
lemma filter_modify_part [DecidableEq κ] {p : κ → Bool} {k : κ}
    {f : ρ → ρ} (hf : ∀ r, key (f r) = key r) {rows rows' : List ρ}
    (h : rows'.filter (fun r => p (key r)) = rows.filter fun r => p (key r)) :
    (modify key k f rows').filter (fun r => p (key r))
      = (modify key k f rows).filter fun r => p (key r) := by
  have hkey : ∀ r, key (if key r = k then f r else r) = key r := by
    intro r
    split_ifs
    · exact hf r
    · rfl
  rw [modify, modify, filter_map_part hkey, filter_map_part hkey, h]

end Rows
