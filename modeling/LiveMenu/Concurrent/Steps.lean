import LiveMenu.Lib.Interleaving
import LiveMenu.Model.World

/-!
# Following the statements of a coroutine

What a monitor has to allow for each statement of a coroutine, in whatever state the others left
the process.
-/

namespace LiveMenu

namespace Async

variable {Φ α β : Type} {M : Monitor World Label Φ} {φ : Φ} {Q : Φ → Except Exc β → Prop}

lemma accepts_http {status : ℕ} {detail : String} (h : Q φ (.error (.http status detail))) :
    M.Accepts Q (http status detail) φ := h

lemma accepts_select_bind {t : Table} {query : Database → α} {k : α → Async β}
    (h : ∀ w, M.allows φ (.select t) w w ∧
      M.Accepts Q (k (query w.db)) (M.next φ (.select t) w w)) :
    M.Accepts Q (select t query >>= k) φ := h

lemma accepts_selectBound_bind {t : Table} {query : Database → Except DbError α}
    {k : α → Async β}
    (hok : ∀ w a, query w.db = .ok a → M.allows φ (.select t) w w ∧
      M.Accepts Q (k a) (M.next φ (.select t) w w))
    (herr : ∀ w e, query w.db = .error e → M.allows φ (.select t) w w ∧
      Q (M.next φ (.select t) w w) (.error (.db e))) :
    M.Accepts Q (selectBound t query >>= k) φ := by
  have hread : ∀ w r, query w.db = r → M.allows φ (.select t) w w ∧
      M.Accepts Q (orRaise r >>= k) (M.next φ (.select t) w w) := by
    intro w r hr
    cases r with
    | ok a => exact hok w a hr
    | error e => exact herr w e hr
  exact fun w => hread w _ rfl

lemma accepts_clock_bind {k : Time → Async β}
    (h : ∀ w, M.allows φ .clock w w ∧ M.Accepts Q (k w.now) (M.next φ .clock w w)) :
    M.Accepts Q (clock >>= k) φ := h

lemma accepts_cacheGet_bind {key : String} {k : Option MenuResponse → Async β}
    (h : ∀ w, M.allows φ (.cacheGet key) w { w with cache := (w.cache.cacheGet key w.now).2 } ∧
      M.Accepts Q (k (w.cache.cacheGet key w.now).1)
        (M.next φ (.cacheGet key) w { w with cache := (w.cache.cacheGet key w.now).2 })) :
    M.Accepts Q (cacheGet key >>= k) φ := h

lemma accepts_cacheSet_bind {key : String} {value : MenuResponse} {ttl : ℤ} {k : Unit → Async β}
    (h : ∀ w,
      M.allows φ (.cacheSet key) w { w with cache := w.cache.cacheSet key value ttl w.now } ∧
      M.Accepts Q (k ())
        (M.next φ (.cacheSet key) w { w with cache := w.cache.cacheSet key value ttl w.now })) :
    M.Accepts Q (cacheSet key value ttl >>= k) φ := h

lemma accepts_cacheInvalidatePrefix_bind {pre : String} {k : Unit → Async β}
    (h : ∀ w, M.allows φ (.cacheInvalidatePrefix pre) w
        { w with cache := w.cache.cacheInvalidatePrefix pre } ∧
      M.Accepts Q (k ()) (M.next φ (.cacheInvalidatePrefix pre) w
        { w with cache := w.cache.cacheInvalidatePrefix pre })) :
    M.Accepts Q (cacheInvalidatePrefix pre >>= k) φ := h

lemma accepts_commit {t : Table} {write : Time → Database → Except DbError (β × Database)}
    (hok : ∀ w b db, write w.now w.db = .ok (b, db) →
      M.allows φ (.commit t) w { w with db := db } ∧
        Q (M.next φ (.commit t) w { w with db := db }) (.ok b))
    (herr : ∀ w e, write w.now w.db = .error e →
      M.allows φ (.commit t) w w ∧ Q (M.next φ (.commit t) w w) (.error (.db e))) :
    M.Accepts Q (commit t write) φ := by
  apply Monitor.accepts_attempt
  · intro w b w' h
    cases hw : write w.now w.db with
    | error e => simp [hw] at h
    | ok r =>
      obtain ⟨b', db⟩ := r
      simp only [hw, Except.ok.injEq, Prod.mk.injEq] at h
      obtain ⟨rfl, rfl⟩ := h
      exact hok w b' db hw
  · intro w e h
    cases hw : write w.now w.db with
    | error e' =>
      simp only [hw, Except.error.injEq] at h
      subst h
      exact herr w e' hw
    | ok r => simp [hw] at h

lemma accepts_commit_bind {t : Table} {write : Time → Database → Except DbError (α × Database)}
    {k : α → Async β}
    (hok : ∀ w a db, write w.now w.db = .ok (a, db) →
      M.allows φ (.commit t) w { w with db := db } ∧
        M.Accepts Q (k a) (M.next φ (.commit t) w { w with db := db }))
    (herr : ∀ w e, write w.now w.db = .error e →
      M.allows φ (.commit t) w w ∧ Q (M.next φ (.commit t) w w) (.error (.db e))) :
    M.Accepts Q (commit t write >>= k) φ :=
  Monitor.accepts_bind (accepts_commit hok herr)

lemma accepts_refresh {t : Table} {query : Database → Option β}
    (h : ∀ w, M.allows φ (.refresh t) w w ∧
      (∀ b, query w.db = some b → Q (M.next φ (.refresh t) w w) (.ok b)) ∧
      (query w.db = none → Q (M.next φ (.refresh t) w w) (.error (.db .noInstance)))) :
    M.Accepts Q (refresh t query) φ := by
  intro w
  refine ⟨(h w).1, ?_⟩
  cases hq : query w.db with
  | some b =>
    simp only [hq]
    exact (h w).2.1 b hq
  | none =>
    simp only [hq]
    exact (h w).2.2 hq

/-! ### Looking without writing -/

end Async

/-- The steps that leave the process as it is. -/
def Label.IsQuery : Label → Prop
  | .select _ | .refresh _ | .clock                             => True
  | .commit _ | .cacheGet _ | .cacheSet _ | .cacheInvalidatePrefix _ => False

namespace Async

variable {Φ α β : Type} {M : Monitor World Label Φ} {φ : Φ} {Q : Φ → Except Exc β → Prop}

/-- The coroutine looks at the database and the clock and does nothing else. -/
def Queries : Async α → Prop
  | .done _          => True
  | .step l eff next => l.IsQuery ∧ eff = id ∧ ∀ w, Queries (next w)

lemma queries_pure (a : α) : Queries (pure a) := trivial

lemma queries_raise (e : Exc) : Queries (Prog.raise e : Async α) := trivial

lemma queries_http (status : ℕ) (detail : String) :
    Queries (http status detail : Async α) := trivial

lemma queries_select (t : Table) (query : Database → α) : Queries (select t query) :=
  ⟨trivial, rfl, fun _ => trivial⟩

lemma queries_clock : Queries clock := ⟨trivial, rfl, fun _ => trivial⟩

lemma Queries.bind {p : Async α} {k : α → Async β} (hp : p.Queries) (hk : ∀ a, (k a).Queries) :
    Queries (p >>= k) := by
  show Queries (Prog.bind p k)
  induction p with
  | done r =>
    cases r with
    | ok a => exact hk a
    | error e => trivial
  | step l eff next ih => exact ⟨hp.1, hp.2.1, fun w => ih w (hp.2.2 w)⟩

lemma queries_refresh (t : Table) (query : Database → Option α) : Queries (refresh t query) := by
  refine Queries.bind (p := Prog.read (.refresh t) fun w => query w.db)
    ⟨trivial, rfl, fun _ => trivial⟩ fun o => ?_
  cases o with
  | some a => exact queries_pure a
  | none => exact queries_raise _

lemma queries_selectBound (t : Table) (query : Database → Except DbError α) :
    Queries (selectBound t query) := by
  refine Queries.bind (queries_select t query) fun r => ?_
  cases r with
  | ok a => exact queries_pure a
  | error e => exact queries_raise _

lemma queries_orElse (o : Option α) {p : Async α} (hp : p.Queries) : (orElse o p).Queries := by
  cases o with
  | some a => exact queries_pure a
  | none => exact hp

lemma queries_whenSome (o : Option α) {f : α → Async Unit} (hf : ∀ a, (f a).Queries) :
    (whenSome o f).Queries := by
  cases o with
  | some a => exact hf a
  | none => exact queries_pure ()

/-- Queries do not move a monitor that lets them pass. -/
lemma Queries.accepts_bind {p : Async α} {k : α → Async β} (hp : p.Queries)
    (hM : ∀ l w, l.IsQuery → M.allows φ l w w ∧ M.next φ l w w = φ)
    (hok : ∀ a, M.Accepts Q (k a) φ) (herr : ∀ e, Q φ (.error e)) : M.Accepts Q (p >>= k) φ := by
  show M.Accepts Q (Prog.bind p k) φ
  induction p with
  | done r =>
    cases r with
    | ok a => exact hok a
    | error e => exact herr e
  | step l eff next ih =>
    obtain ⟨hl, rfl, hnext⟩ := hp
    intro w
    obtain ⟨hallow, hφ⟩ := hM l w hl
    refine ⟨hallow, ?_⟩
    rw [id, hφ]
    exact ih w (hnext w)

end Async

/-! ### The process around its coroutines -/

/-- What other requests do while the coroutines of interest wait: time passes, and the tables in
view stay as they are. -/
def Background {β : Type} (view : World → β) (w w' : World) : Prop :=
  view w' = view w ∧ w.now ≤ w'.now

instance {β : Type} [DecidableEq β] (view : World → β) : DecidableRel (Background view) :=
  fun w w' => inferInstanceAs (Decidable (view w' = view w ∧ w.now ≤ w'.now))

end LiveMenu
