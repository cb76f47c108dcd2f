import LiveMenu.Model.Values

/-!
# The in-memory cache

`_cache` is a dictionary from keys to values with an expiry instant. It is kept as an
association list with at most one entry for each key, in insertion order.
-/

namespace LiveMenu

/-- `_cache: dict[str, tuple[Any, float]]`. -/
abbrev Cache (V : Type) := List (String × V × Time)

/-- `s.startswith(p)`. -/
def startswith (s p : String) : Bool := p.toList.isPrefixOf s.toList

namespace Cache

variable {V : Type}

/-- `_cache.get(key)`. -/
def lookup (c : Cache V) (key : String) : Option (V × Time) :=
  (c.find? fun e => e.1 == key).map Prod.snd

/-- `_cache.pop(key, None)`. -/
def pop (c : Cache V) (key : String) : Cache V := c.filter fun e => e.1 != key

/-- `_cache[key] = entry`: replaced where it stands, else added at the end. -/
def store (c : Cache V) (key : String) (entry : V × Time) : Cache V :=
  if c.any fun e => e.1 == key then c.map fun e => if e.1 == key then (key, entry) else e
  else c ++ [(key, entry)]

/-- `cache_get`: the value, and the cache with an expired entry evicted. -/
def cacheGet (c : Cache V) (key : String) (now : Time) : Option V × Cache V :=
  match c.lookup key with
  | none                    => (none, c)
  | some (value, expiresAt) => if now > expiresAt then (none, c.pop key) else (some value, c)

/-- `cache_set`, with `ttl` in seconds. -/
def cacheSet (c : Cache V) (key : String) (value : V) (ttl : ℤ) (now : Time) : Cache V :=
  c.store key (value, now + Time.seconds ttl)

/-- `cache_invalidate`. -/
def cacheInvalidate (c : Cache V) (key : String) : Cache V := c.pop key

/-- `cache_invalidate_prefix`: collect the matching keys, then pop them one by one. -/
def cacheInvalidatePrefix (c : Cache V) (pre : String) : Cache V :=
  ((c.map Prod.fst).filter fun k => startswith k pre).foldl pop c

/-- `cache_clear`. -/
def cacheClear (_ : Cache V) : Cache V := []

/-! ### Lemmas -/

@[simp] lemma lookup_nil (k : String) : lookup ([] : Cache V) k = none := rfl

lemma lookup_cons (e : String × V × Time) (c : Cache V) (k : String) :
    lookup (e :: c) k = if e.1 = k then some e.2 else c.lookup k := by
  split_ifs with h
  · simp [lookup, h]
  · rw [lookup, List.find?_cons_of_neg (by simpa using h), lookup]

lemma lookup_append (c d : Cache V) (k : String) :
    lookup (c ++ d) k = (c.lookup k).or (d.lookup k) := by
  simp only [lookup, List.find?_append, Option.map_or]

lemma lookup_eq_none {c : Cache V} {k : String} : c.lookup k = none ↔ k ∉ c.map Prod.fst := by
  rw [lookup, Option.map_eq_none_iff, List.find?_eq_none, List.mem_map]
  constructor
  · rintro h ⟨e, he, rfl⟩
    exact h e he (beq_self_eq_true e.1)
  · intro h e he hk
    exact h ⟨e, he, beq_iff_eq.mp hk⟩

@[simp] lemma lookup_pop (c : Cache V) (key k : String) :
    (c.pop key).lookup k = if k = key then none else c.lookup k := by
  split_ifs with hk
  · simp [lookup_eq_none, pop, hk]
  · induction c with
    | nil => rfl
    | cons e c ih =>
      rw [pop, List.filter_cons, ← pop]
      by_cases he : e.1 = key
      · simp [he, ih, lookup_cons, Ne.symm hk]
      · simp [he, ih, lookup_cons]

lemma lookup_replace (c : Cache V) (key k : String) (entry : V × Time) :
    lookup (c.map fun e => if e.1 == key then (key, entry) else e) k
      = if k = key then (c.lookup key).map fun _ => entry else c.lookup k := by
  induction c with
  | nil => simp [lookup]
  | cons e c ih =>
    rw [List.map_cons, lookup_cons, ih]
    by_cases he : e.1 = key
    · by_cases hk : k = key
      · simp [he, hk, lookup_cons]
      · simp [he, hk, lookup_cons, Ne.symm hk]
    · by_cases hk : k = key
      · simp [he, hk, lookup_cons]
      · simp [he, hk, lookup_cons]

@[simp] lemma lookup_store (c : Cache V) (key k : String) (entry : V × Time) :
    (c.store key entry).lookup k = if k = key then some entry else c.lookup k := by
  rw [store]
  split_ifs with hany hk hk
  · have hkey : c.lookup key ≠ none := by
      simpa [lookup_eq_none] using hany
    obtain ⟨old, hold⟩ := Option.ne_none_iff_exists'.mp hkey
    rw [lookup_replace, if_pos hk, hold, Option.map_some]
  · rw [lookup_replace, if_neg hk]
  · have hkey : c.lookup k = none := by
      simpa [lookup_eq_none, hk] using hany
    rw [lookup_append, hkey, Option.none_or, lookup_cons, if_pos hk.symm]
  · rw [lookup_append, lookup_cons, if_neg (Ne.symm hk), lookup_nil, Option.or_none]

lemma lookup_foldl_pop (ks : List String) (c : Cache V) (k : String) :
    (ks.foldl pop c).lookup k = if k ∈ ks then none else c.lookup k := by
  induction ks generalizing c with
  | nil => simp
  | cons key ks ih =>
    rw [List.foldl_cons, ih, lookup_pop]
    by_cases hk : k = key <;> simp [hk]

@[simp] lemma lookup_cacheInvalidatePrefix (c : Cache V) (pre k : String) :
    (c.cacheInvalidatePrefix pre).lookup k = if startswith k pre then none else c.lookup k := by
  rw [cacheInvalidatePrefix, lookup_foldl_pop]
  by_cases hkey : k ∈ c.map Prod.fst
  · simp only [List.mem_filter, hkey, true_and]
  · simp only [List.mem_filter, hkey, false_and, lookup_eq_none.mpr hkey, ite_self]

lemma mem_of_lookup {c : Cache V} {key : String} {entry : V × Time}
    (h : c.lookup key = some entry) : (key, entry) ∈ c := by
  simp only [lookup, Option.map_eq_some_iff] at h
  obtain ⟨⟨k, e⟩, hf, rfl⟩ := h
  have hk : k = key := by simpa using List.find?_some hf
  exact hk ▸ List.mem_of_find?_eq_some hf

lemma mem_pop {c : Cache V} {key : String} {e : String × V × Time} :
    e ∈ c.pop key ↔ e ∈ c ∧ e.1 ≠ key := by
  simp [pop]

lemma mem_store {c : Cache V} {key : String} {entry : V × Time} {e : String × V × Time}
    (h : e ∈ c.store key entry) : e = (key, entry) ∨ e ∈ c ∧ e.1 ≠ key := by
  rw [store] at h
  split_ifs at h with hany
  · obtain ⟨e', he', rfl⟩ := List.mem_map.mp h
    split_ifs with hkey
    · exact .inl rfl
    · exact .inr ⟨he', fun heq => hkey (beq_iff_eq.mpr heq)⟩
  · rcases List.mem_append.mp h with h | h
    · exact .inr ⟨h, fun heq => hany (List.any_eq_true.mpr ⟨e, h, beq_iff_eq.mpr heq⟩)⟩
    · exact .inl (List.mem_singleton.mp h)

lemma mem_foldl_pop {ks : List String} {c : Cache V} {e : String × V × Time} :
    e ∈ ks.foldl pop c ↔ e ∈ c ∧ e.1 ∉ ks := by
  induction ks generalizing c with
  | nil => simp
  | cons k ks ih =>
    rw [List.foldl_cons, ih, mem_pop, List.mem_cons, not_or, and_assoc]

/-- Prefix invalidation removes exactly the entries whose key has the prefix. -/
lemma mem_cacheInvalidatePrefix {c : Cache V} {pre : String} {e : String × V × Time} :
    e ∈ c.cacheInvalidatePrefix pre ↔ e ∈ c ∧ startswith e.1 pre = false := by
  rw [cacheInvalidatePrefix, mem_foldl_pop]
  apply and_congr_right
  intro he
  rw [List.mem_filter, not_and, Bool.not_eq_true]
  exact ⟨fun h => h (List.mem_map.mpr ⟨e, he, rfl⟩), fun h _ => h⟩

/-- A read only drops entries. -/
lemma mem_cacheGet {c : Cache V} {key : String} {now : Time} {e : String × V × Time}
    (h : e ∈ (c.cacheGet key now).2) : e ∈ c := by
  rw [cacheGet] at h
  split at h
  · exact h
  · split_ifs at h
    · exact (mem_pop.mp h).1
    · exact h

/-- What a read returns is the value of an entry that is not expired. -/
lemma cacheGet_some {c : Cache V} {key : String} {now : Time} {v : V}
    (h : (c.cacheGet key now).1 = some v) :
    ∃ expiresAt, (key, v, expiresAt) ∈ c ∧ now ≤ expiresAt := by
  rw [cacheGet] at h
  split at h
  · cases h
  · rename_i value expiresAt hl
    split_ifs at h with hnow
    cases h
    exact ⟨expiresAt, mem_of_lookup hl, not_lt.mp hnow⟩

end Cache

end LiveMenu
