import LiveMenu.Lib.Program
import LiveMenu.Model.Cache
import LiveMenu.Model.Tables

/-!
# The world of a coroutine

What the coroutines of one process share: the database, the menu cache and the clock. Each awaited
database call is one atomic step on it, and so is each access to the cache or the clock between
two of them, so an interleaving can put other coroutines anywhere in between.
-/

namespace LiveMenu

/-- The exceptions a service call can end with. -/
inductive Exc where
  /-- `HTTPException(status_code, detail)`. -/
  | http (status : ℕ) (detail : String)
  /-- An exception of the database layer. -/
  | db (e : DbError)
  /-- `JWTError`. -/
  | jwt
  /-- `AttributeError`: a method of `None` was called. -/
  | attribute
  /-- `OverflowError` of datetime arithmetic, or its `ValueError` for a year out of range. -/
  | overflow
  /-- An exception of the password library. -/
  | password
  /-- Not an exception: a loop that has not ended within the fuel it was given. -/
  | unfinished
  deriving DecidableEq

inductive Table where
  | users
  | restaurants
  | categories
  | dishes
  | scanEvents
  | refreshTokens
  deriving DecidableEq

/-- What a step does: an awaited database call, or code that runs between two of them. -/
inductive Label where
  | select (t : Table)
  | commit (t : Table)
  | refresh (t : Table)
  | cacheGet (key : String)
  | cacheSet (key : String)
  | cacheInvalidatePrefix (pre : String)
  | clock
  deriving DecidableEq

structure World where
  db : Database
  cache : Cache MenuResponse
  now : Time

/-- A coroutine. -/
abbrev Async := Prog World Label Exc

namespace Async

variable {α : Type}

/-- `raise HTTPException(status, detail)`. -/
def http (status : ℕ) (detail : String) : Async α := Prog.raise (.http status detail)

/-- `await session.execute(query)` of a SELECT. -/
def select (t : Table) (query : Database → α) : Async α :=
  Prog.read (.select t) fun w => query w.db

/-- What a statement returned, or the exception it was refused with. -/
def orRaise : Except DbError α → Async α
  | .ok a    => pure a
  | .error e => Prog.raise (.db e)

/-- A SELECT with bound values, which the driver or the server can refuse. -/
def selectBound (t : Table) (query : Database → Except DbError α) : Async α :=
  select t query >>= orRaise

/-- `await session.commit()`: flush and commit what `write` makes of the database, or raise and
leave it alone. -/
def commit (t : Table) (write : Time → Database → Except DbError (α × Database)) : Async α :=
  Prog.attempt (.commit t) fun w =>
    match write w.now w.db with
    | .ok (a, db) => .ok (a, { w with db := db })
    | .error e    => .error (.db e)

/-- `await session.refresh(instance)`: read the row of the instance again. -/
def refresh (t : Table) (query : Database → Option α) : Async α := do
  match ← Prog.read (.refresh t) fun w => query w.db with
  | some a => pure a
  | none   => Prog.raise (.db .noInstance)

/-- `if o is None: o = await p`. -/
def orElse (o : Option α) (p : Async α) : Async α :=
  match o with
  | some a => pure a
  | none   => p

/-- `if o is given: await f(o)`. -/
def whenSome (o : Option α) (f : α → Async Unit) : Async Unit :=
  match o with
  | some a => f a
  | none   => pure ()

/-- `datetime.now(timezone.utc)`. -/
def clock : Async Time := Prog.read .clock World.now

def cacheGet (key : String) : Async (Option MenuResponse) :=
  .step (.cacheGet key) (fun w => { w with cache := (w.cache.cacheGet key w.now).2 })
    fun w => pure (w.cache.cacheGet key w.now).1

def cacheSet (key : String) (value : MenuResponse) (ttl : ℤ) : Async Unit :=
  Prog.modify (.cacheSet key) fun w => { w with cache := w.cache.cacheSet key value ttl w.now }

def cacheInvalidatePrefix (pre : String) : Async Unit :=
  Prog.modify (.cacheInvalidatePrefix pre) fun w =>
    { w with cache := w.cache.cacheInvalidatePrefix pre }

/-! ### Running alone -/

variable {β : Type} (w : World)

@[simp] lemma exec_http (status : ℕ) (detail : String) :
    (http status detail : Async α).exec w = (.error (.http status detail), w) := rfl

@[simp] lemma exec_http_bind (status : ℕ) (detail : String) (k : α → Async β) :
    ((http status detail : Async α) >>= k).exec w = (.error (.http status detail), w) := rfl

@[simp] lemma exec_select (t : Table) (query : Database → α) :
    (select t query).exec w = (.ok (query w.db), w) := rfl

@[simp] lemma exec_select_bind (t : Table) (query : Database → α) (k : α → Async β) :
    (select t query >>= k).exec w = (k (query w.db)).exec w := rfl

@[simp] lemma steps_select_bind (t : Table) (query : Database → α) (k : α → Async β) :
    (select t query >>= k).steps w = (k (query w.db)).steps w + 1 := rfl

lemma exec_selectBound_bind_ok {t : Table} {query : Database → Except DbError α} {a : α}
    (h : query w.db = .ok a) (k : α → Async β) :
    (selectBound t query >>= k).exec w = (k a).exec w := by
  rw [Prog.exec_bind, selectBound, exec_select_bind, h]
  rfl

lemma exec_selectBound_bind_error {t : Table} {query : Database → Except DbError α} {e : DbError}
    (h : query w.db = .error e) (k : α → Async β) :
    (selectBound t query >>= k).exec w = (.error (.db e), w) := by
  rw [Prog.exec_bind, selectBound, exec_select_bind, h]
  rfl

lemma exec_commit (t : Table) (write : Time → Database → Except DbError (α × Database)) :
    (commit t write).exec w
      = match write w.now w.db with
        | .ok (a, db) => (.ok a, { w with db := db })
        | .error e    => (.error (.db e), w) := by
  rw [commit, Prog.exec_attempt]
  cases write w.now w.db <;> rfl

lemma exec_commit_bind (t : Table) (write : Time → Database → Except DbError (α × Database))
    (k : α → Async β) :
    (commit t write >>= k).exec w
      = match write w.now w.db with
        | .ok (a, db) => (k a).exec { w with db := db }
        | .error e    => (.error (.db e), w) := by
  rw [Prog.exec_bind, exec_commit]
  cases write w.now w.db <;> rfl

@[simp] lemma exec_refresh (t : Table) (query : Database → Option α) :
    (refresh t query).exec w
      = match query w.db with
        | some a => (.ok a, w)
        | none   => (.error (.db .noInstance), w) := by
  simp only [refresh, Prog.exec_read_bind]
  cases query w.db <;> rfl

@[simp] lemma exec_refresh_bind (t : Table) (query : Database → Option α) (k : α → Async β) :
    (refresh t query >>= k).exec w
      = match query w.db with
        | some a => (k a).exec w
        | none   => (.error (.db .noInstance), w) := by
  rw [Prog.exec_bind, exec_refresh]
  cases query w.db <;> rfl

@[simp] lemma exec_clock_bind (k : Time → Async β) :
    (clock >>= k).exec w = (k w.now).exec w := rfl

@[simp] lemma exec_cacheGet_bind (key : String) (k : Option MenuResponse → Async β) :
    (cacheGet key >>= k).exec w
      = (k (w.cache.cacheGet key w.now).1).exec
          { w with cache := (w.cache.cacheGet key w.now).2 } := rfl

@[simp] lemma exec_cacheSet_bind (key : String) (value : MenuResponse) (ttl : ℤ)
    (k : Unit → Async β) :
    (cacheSet key value ttl >>= k).exec w
      = (k ()).exec { w with cache := w.cache.cacheSet key value ttl w.now } := rfl

@[simp] lemma exec_cacheInvalidatePrefix_bind (pre : String) (k : Unit → Async β) :
    (cacheInvalidatePrefix pre >>= k).exec w
      = (k ()).exec { w with cache := w.cache.cacheInvalidatePrefix pre } := rfl

@[simp] lemma exec_cacheInvalidatePrefix (pre : String) :
    (cacheInvalidatePrefix pre).exec w
      = (.ok (), { w with cache := w.cache.cacheInvalidatePrefix pre }) := rfl

end Async

end LiveMenu
