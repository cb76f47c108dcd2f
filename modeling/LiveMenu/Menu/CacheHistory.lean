import Mathlib.Data.List.Induction
import Mathlib.Tactic.Common
import LiveMenu.Model.Cache

/-!
# The cache and its history

What a read returns is decided by the last operation that concerns its key. A read evicts the entry
of its own key at most, and only when no later read would return it.
-/

namespace LiveMenu

inductive CacheOp (V : Type) where
  | set (key : String) (value : V) (ttl : ℤ)
  | get (key : String)
  | invalidate (key : String)
  | invalidatePrefix (pre : String)
  | clear

namespace CacheOp

variable {V : Type}

/-- What the operation leaves of the cache at an instant. -/
def apply (c : Cache V) (now : Time) : CacheOp V → Cache V
  | .set key value ttl      => c.cacheSet key value ttl now
  | .get key                => (c.cacheGet key now).2
  | .invalidate key         => c.cacheInvalidate key
  | .invalidatePrefix pre   => c.cacheInvalidatePrefix pre
  | .clear                  => c.cacheClear

/-- It sets the key, or removes it or a prefix of it. -/
def Concerns (k : String) : CacheOp V → Bool
  | .set key _ _            => k = key
  | .get _                  => false
  | .invalidate key         => k = key
  | .invalidatePrefix pre   => startswith k pre
  | .clear                  => true

/-- What a key that it concerns is read as at `t`, if it was performed at `now`. -/
def written (now t : Time) : CacheOp V → Option V
  | .set _ value ttl  => if t ≤ now + Time.seconds ttl then some value else none
  | _                 => none

def isGet : CacheOp V → Bool
  | .get _  => true
  | _       => false

end CacheOp

/-- Operations with the instants at which they are performed. -/
abbrev CacheHistory (V : Type) := List (Time × CacheOp V)

namespace CacheHistory

variable {V : Type}

/-- The cache after the operations. -/
def run (h : CacheHistory V) (c : Cache V) : Cache V := h.foldl (fun c op => op.2.apply c op.1) c

/-- The last operation that concerns the key. -/
def lastConcerning (h : CacheHistory V) (k : String) : Option (Time × CacheOp V) :=
  (h.filter fun op => op.2.Concerns k).getLast?

end CacheHistory

namespace Cache

variable {V : Type}

/-- What a read of the key returns. -/
def answer (c : Cache V) (k : String) (t : Time) : Option V := (c.cacheGet k t).1

lemma answer_eq (c : Cache V) (k : String) (t : Time) :
    c.answer k t = (c.lookup k).bind fun e => if t ≤ e.2 then some e.1 else none := by
  rw [answer, cacheGet]
  cases c.lookup k with
  | none => rfl
  | some e =>
    obtain ⟨value, expiresAt⟩ := e
    by_cases h : t ≤ expiresAt
    · simp [h, not_lt.mpr h]
    · simp [h, not_le.mp h]

@[simp] lemma answer_nil (k : String) (t : Time) : answer ([] : Cache V) k t = none := rfl

/-- A read that comes no later than another one does not change its answer. -/
lemma answer_cacheGet (c : Cache V) (key k : String) {now t : Time} (h : now ≤ t) :
    (c.cacheGet key now).2.answer k t = c.answer k t := by
  rw [cacheGet]
  cases hkey : c.lookup key with
  | none => rfl
  | some e =>
    obtain ⟨value, expiresAt⟩ := e
    by_cases hexpired : now > expiresAt
    · simp only [if_pos hexpired]
      rw [answer_eq, answer_eq, lookup_pop]
      split_ifs with hk
      · -- the evicted entry is expired at `t` too
        rw [hk, hkey, Option.bind_none, Option.bind_some, if_neg (not_le.mpr (hexpired.trans_le h))]
      · rfl
    · simp only [if_neg hexpired]

/-- What one operation does to a later read. -/
lemma answer_apply (c : Cache V) (op : CacheOp V) (k : String) {now t : Time} (h : now ≤ t) :
    (op.apply c now).answer k t
      = if op.Concerns k then op.written now t else c.answer k t := by
  cases op with
  | set key value ttl =>
    by_cases hk : k = key
    · simp [CacheOp.apply, CacheOp.Concerns, CacheOp.written, cacheSet, answer_eq, hk]
    · simp [CacheOp.apply, CacheOp.Concerns, cacheSet, answer_eq, hk]
  | get key => simpa [CacheOp.apply, CacheOp.Concerns] using answer_cacheGet c key k h
  | invalidate key =>
    by_cases hk : k = key
    · simp [CacheOp.apply, CacheOp.Concerns, CacheOp.written, cacheInvalidate, answer_eq, hk]
    · simp [CacheOp.apply, CacheOp.Concerns, cacheInvalidate, answer_eq, hk]
  | invalidatePrefix pre =>
    cases hk : startswith k pre with
    | true => simp [CacheOp.apply, CacheOp.Concerns, CacheOp.written, answer_eq, hk]
    | false => simp [CacheOp.apply, CacheOp.Concerns, answer_eq, hk]
  | clear => simp [CacheOp.apply, CacheOp.Concerns, CacheOp.written, cacheClear]

end Cache

namespace CacheHistory

variable {V : Type}

lemma run_concat (h : CacheHistory V) (op : Time × CacheOp V) (c : Cache V) :
    run (h ++ [op]) c = op.2.apply (h.run c) op.1 := by
  simp [run]

lemma lastConcerning_concat (h : CacheHistory V) (op : Time × CacheOp V) (k : String) :
    lastConcerning (h ++ [op]) k = if op.2.Concerns k then some op else h.lastConcerning k := by
  split_ifs with hop
  · simp [lastConcerning, hop]
  · simp [lastConcerning, hop]

/-- The last operation that concerns the key decides what a read returns. -/
lemma answer_run {h : CacheHistory V} {t : Time} (hpast : ∀ op ∈ h, op.1 ≤ t) (k : String) :
    (h.run []).answer k t = (h.lastConcerning k).bind fun op => op.2.written op.1 t := by
  induction h using List.reverseRecOn with
  | nil => rfl
  | append_singleton h op ih =>
    have hop : op.1 ≤ t := hpast op (by simp)
    have hrest : ∀ op ∈ h, op.1 ≤ t := fun op hop => hpast op (by simp [hop])
    rw [run_concat, Cache.answer_apply _ _ _ hop, lastConcerning_concat, ih hrest]
    split_ifs
    · rfl
    · rfl

/-- The reads do not count. -/
lemma lastConcerning_writes (h : CacheHistory V) (k : String) :
    lastConcerning (h.filter fun op => !op.2.isGet) k = h.lastConcerning k := by
  have hop : ∀ op : CacheOp V, (op.Concerns k && !op.isGet) = op.Concerns k := by
    intro op
    cases op <;> simp [CacheOp.Concerns, CacheOp.isGet]
  rw [lastConcerning, List.filter_filter, lastConcerning]
  simp only [hop]

lemma written_eq_some {op : CacheOp V} {now t : Time} {v : V} :
    op.written now t = some v ↔ ∃ key ttl, op = .set key v ttl ∧ t ≤ now + Time.seconds ttl := by
  cases op with
  | set key value ttl =>
    constructor
    · intro h
      rw [CacheOp.written] at h
      split_ifs at h with ht
      cases h
      exact ⟨key, ttl, rfl, ht⟩
    · rintro ⟨_, _, ⟨⟩, ht⟩
      rw [CacheOp.written, if_pos ht]
  | get | invalidate | invalidatePrefix | clear => simp [CacheOp.written]

lemma concerns_of_lastConcerning {h : CacheHistory V} {k : String} {op : Time × CacheOp V}
    (hlast : h.lastConcerning k = some op) : op.2.Concerns k = true :=
  (List.mem_filter.mp (List.mem_of_getLast? hlast)).2

/-- A read returns a value if and only if the last operation that concerns its key has set the key
to it and the entry is not expired. The reads before it and the invalidation of a prefix of other
keys make no difference. -/
theorem cache_determined_by_history (h : CacheHistory V) (k : String) (t : Time)
    (hpast : ∀ op ∈ h, op.1 ≤ t) :
    (∀ v, (h.run []).answer k t = some v ↔
      ∃ ttl t₀, h.lastConcerning k = some (t₀, .set k v ttl) ∧ t ≤ t₀ + Time.seconds ttl) ∧
    (run (h.filter fun op => !op.2.isGet) []).answer k t = (h.run []).answer k t ∧
    ∀ pre, startswith k pre = false →
      ((h.run []).cacheInvalidatePrefix pre).answer k t = (h.run []).answer k t := by
  have hwrites : ∀ op ∈ h.filter fun op => !op.2.isGet, op.1 ≤ t := fun op hop =>
    hpast op (List.mem_filter.mp hop).1
  refine ⟨?_, ?_, ?_⟩
  · intro v
    rw [answer_run hpast, Option.bind_eq_some_iff]
    constructor
    · rintro ⟨⟨t₀, op⟩, hlast, hop⟩
      obtain ⟨key, ttl, rfl, ht⟩ := written_eq_some.mp hop
      have hk : k = key := of_decide_eq_true (concerns_of_lastConcerning hlast)
      exact ⟨ttl, t₀, hk ▸ hlast, ht⟩
    · rintro ⟨ttl, t₀, hlast, ht⟩
      exact ⟨_, hlast, written_eq_some.mpr ⟨k, ttl, rfl, ht⟩⟩
  · rw [answer_run hwrites, answer_run hpast, lastConcerning_writes]
  · intro pre hpre
    simp [Cache.answer_eq, hpre]

/-- A menu is stored for five minutes, read, and the menus of other slugs are dropped. -/
def storedAndRead : CacheHistory ℕ :=
  [(0, .set "menu:casa" 1 300), (Time.seconds 100, .get "menu:casa"),
    (Time.seconds 200, .invalidatePrefix "menu:bar")]

theorem cache_determined_by_history_stored :
    (storedAndRead.run []).answer "menu:casa" (Time.seconds 300) = some 1 :=
  ((cache_determined_by_history storedAndRead "menu:casa" (Time.seconds 300) (by decide)).1 1).mpr
    ⟨300, 0, rfl, by decide⟩

end CacheHistory

end LiveMenu
