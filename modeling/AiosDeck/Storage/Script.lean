import AiosDeck.Storage.Sqlite

/-!
# Programs as trees of statements

How a program goes on after a statement depends on the database that the
statement leaves, or on the exception that it raises. Such a program is run
alone, with one statement that fails, or against another program, with the
statements of the two in any order.
-/

namespace AiosDeck.Storage

open Python

/-- A program of autocommitted statements. -/
inductive Script (D α : Type) where
  | done (a : α)
  | raise (exc : PyExc)
  | stmt (body : D → Except PyExc D) (next : D → Script D α) (caught : PyExc → Script D α)

namespace Script

variable {D α β : Type}

protected def bind : Script D α → (α → Script D β) → Script D β
  | done a, f => f a
  | raise exc, _ => raise exc
  | stmt body next caught, f =>
    stmt body (fun db => (next db).bind f) (fun exc => (caught exc).bind f)

/-- `try` and `except Exception`. -/
protected def tryCatch : Script D α → (PyExc → Script D α) → Script D α
  | done a, _ => done a
  | raise exc, handler => handler exc
  | stmt body next caught, handler =>
    stmt body (fun db => (next db).tryCatch handler) (fun exc => (caught exc).tryCatch handler)

instance : Monad (Script D) where
  pure := done
  bind := Script.bind

instance : MonadExceptOf PyExc (Script D) where
  throw := raise
  tryCatch := Script.tryCatch

/-- `_fetch_one` and `_fetch_all`: a query that fails gives the fallback. -/
def select (query : D → α) (fallback : α) : Script D α :=
  stmt .ok (fun db => done (query db)) fun exc => if exc.isSqlite then done fallback else raise exc

/-- `_execute`, and what is then read off its cursor. -/
def change (body : D → Except PyExc D) (cursor : D → α) : Script D α :=
  stmt body (fun db => done (cursor db)) raise

/-- What a program returns or raises, and the database that it leaves. -/
def run : Script D α → D → Except PyExc α × D
  | done a, db => (.ok a, db)
  | raise exc, db => (.error exc, db)
  | stmt body next caught, db =>
    match body db with
    | .ok db' => (next db').run db'
    | .error exc => (caught exc).run db

/-- `with connection.atomic()`: the statements of a block take effect
together or not at all. -/
def atomic (block : Script D Unit) : Script D Unit :=
  change (fun db =>
    match block.run db with
    | (.ok (), db') => .ok db'
    | (.error exc, _) => .error exc) fun _ => ()

/-- A run in which the statement behind `n` others fails. -/
def runFailing (message : String) : ℕ → Script D α → D → Except PyExc α × D
  | _, done a, db => (.ok a, db)
  | _, raise exc, db => (.error exc, db)
  | 0, stmt _ _ caught, db => (caught (sqlError message)).run db
  | n + 1, stmt body next caught, db =>
    match body db with
    | .ok db' => (next db').runFailing message n db'
    | .error exc => (caught exc).runFailing message n db

/-- The next statement of a program. -/
def step : Script D α → D → Script D α × D
  | done a, db => (done a, db)
  | raise exc, db => (raise exc, db)
  | stmt body next caught, db =>
    match body db with
    | .ok db' => (next db', db')
    | .error exc => (caught exc, db)

/-- What a program has returned or raised, once it has ended. -/
def result : Script D α → Option (Except PyExc α)
  | done a => some (.ok a)
  | raise exc => some (.error exc)
  | stmt _ _ _ => none

@[simp] theorem run_pure (a : α) (db : D) : (pure a : Script D α).run db = (.ok a, db) := rfl

@[simp] theorem run_throw (exc : PyExc) (db : D) :
    (throw exc : Script D α).run db = (.error exc, db) := rfl

@[simp] theorem run_select (query : D → α) (fallback : α) (db : D) :
    (select query fallback).run db = (.ok (query db), db) := rfl

@[simp] theorem done_bind (a : α) (f : α → Script D β) : (done a >>= f) = f a := rfl

@[simp] theorem runFailing_done (message : String) (n : ℕ) (a : α) (db : D) :
    (done a : Script D α).runFailing message n db = (.ok a, db) := by
  cases n <;> rfl

@[simp] theorem runFailing_raise (message : String) (n : ℕ) (exc : PyExc) (db : D) :
    (raise exc : Script D α).runFailing message n db = (.error exc, db) := by
  cases n <;> rfl

/-- A run begins with the first statement. -/
theorem run_step (x : Script D α) (db : D) : x.run db = (x.step db).1.run (x.step db).2 := by
  cases x with
  | done a => rfl
  | raise exc => rfl
  | stmt body next caught => cases hbody : body db <;> simp only [run, step, hbody]

/-- A later statement fails as if the program began behind its first one. -/
theorem runFailing_succ (message : String) (n : ℕ) (x : Script D α) (db : D) :
    x.runFailing message (n + 1) db = (x.step db).1.runFailing message n (x.step db).2 := by
  cases x with
  | done a => rw [runFailing_done, step, runFailing_done]
  | raise exc => rw [runFailing_raise, step, runFailing_raise]
  | stmt body next caught => cases hbody : body db <;> simp only [runFailing, step, hbody]

/-- Programs in sequence. -/
theorem run_bind (x : Script D α) (f : α → Script D β) (db : D) : (x >>= f).run db =
    match x.run db with
    | (.ok a, db') => (f a).run db'
    | (.error exc, db') => (.error exc, db') := by
  induction x generalizing db with
  | done a => rfl
  | raise exc => rfl
  | stmt body next caught hnext hcaught =>
    change (Script.stmt body _ _).run db = _
    cases hbody : body db with
    | ok db' =>
      simp only [run, hbody]
      exact hnext db' db'
    | error exc =>
      simp only [run, hbody]
      exact hcaught exc db

theorem run_bind_ok {x : Script D α} {a : α} {db db' : D} (h : x.run db = (.ok a, db'))
    (f : α → Script D β) : (x >>= f).run db = (f a).run db' := by
  rw [run_bind, h]

theorem run_bind_error {x : Script D α} {exc : PyExc} {db db' : D}
    (h : x.run db = (.error exc, db')) (f : α → Script D β) :
    (x >>= f).run db = (.error exc, db') := by
  rw [run_bind, h]

/-- What a program does with its result at the end leaves the database alone. -/
theorem run_bind_pure (x : Script D α) (f : α → β) (db : D) :
    ((x >>= fun a => pure (f a)).run db).2 = (x.run db).2 := by
  rw [run_bind]
  cases x.run db with
  | mk outcome db' => cases outcome <;> rfl

/-- What a program does with its result at the end needs no statement. -/
theorem runFailing_bind_pure (message : String) (n : ℕ) (x : Script D α) (f : α → β) (db : D) :
    ((x >>= fun a => pure (f a)).runFailing message n db).2 = (x.runFailing message n db).2 := by
  induction x generalizing n db with
  | done a =>
    change ((done (f a)).runFailing message n db).2 = _
    rw [runFailing_done, runFailing_done]
  | raise exc =>
    change ((raise exc).runFailing message n db).2 = _
    rw [runFailing_raise, runFailing_raise]
  | stmt body next caught hnext hcaught =>
    change (runFailing message n (stmt body (fun db => (next db).bind fun a => pure (f a))
      fun exc => (caught exc).bind fun a => pure (f a)) db).2 = _
    cases n with
    | zero => exact run_bind_pure (caught _) f db
    | succ n =>
      cases hbody : body db with
      | ok db' =>
        simp only [runFailing, hbody]
        exact hnext db' n db'
      | error exc =>
        simp only [runFailing, hbody]
        exact hcaught exc n db

@[simp] theorem run_select_bind (query : D → α) (fallback : α) (f : α → Script D β) (db : D) :
    (select query fallback >>= f).run db = (f (query db)).run db := rfl

theorem run_change {body : D → Except PyExc D} {db db' : D} (h : body db = .ok db')
    (cursor : D → α) : (change body cursor).run db = (.ok (cursor db'), db') := by
  simp only [change, run, h]

theorem run_change_error {body : D → Except PyExc D} {db : D} {exc : PyExc}
    (h : body db = .error exc) (cursor : D → α) :
    (change body cursor).run db = (.error exc, db) := by
  simp only [change, run, h]

/-- However a program ends, the database before and the one after are related. -/
def Respects (R : D → D → Prop) (x : Script D α) : Prop := ∀ db, R db (x.run db).2

section Respects

variable {R : D → D → Prop} [Std.Refl R] [IsTrans D R]

omit [IsTrans D R] in
theorem Respects.pure (a : α) : Respects R (Pure.pure a : Script D α) := fun db => refl_of R db

omit [IsTrans D R] in
theorem Respects.throw (exc : PyExc) : Respects R (throw exc : Script D α) := fun db => refl_of R db

omit [IsTrans D R] in
theorem Respects.select (query : D → α) (fallback : α) : Respects R (select query fallback) :=
  fun db => refl_of R db

omit [IsTrans D R] in
theorem Respects.change {body : D → Except PyExc D} (cursor : D → α)
    (h : ∀ db db', body db = .ok db' → R db db') : Respects R (change body cursor) := by
  intro db
  cases hbody : body db with
  | ok db' =>
    rw [run_change hbody]
    exact h db db' hbody
  | error exc =>
    rw [run_change_error hbody]
    exact refl_of R db

omit [Std.Refl R] in
theorem Respects.bind {x : Script D α} {f : α → Script D β} (hx : Respects R x)
    (hf : ∀ a, Respects R (f a)) : Respects R (x >>= f) := by
  intro db
  have hone := hx db
  rw [run_bind]
  cases hrun : x.run db with
  | mk outcome db' =>
    rw [hrun] at hone
    cases outcome with
    | ok a => exact trans_of R hone (hf a db')
    | error exc => exact hone

end Respects

end Script

/-- Two programs on one database. -/
structure Race (D α β : Type) where
  left : Script D α
  right : Script D β
  db : D

namespace Race

variable {D α β : Type}

/-- The next statement of one of the two. -/
def step (race : Race D α β) : Bool → Race D α β
  | true => ⟨(race.left.step race.db).1, race.right, (race.left.step race.db).2⟩
  | false => ⟨race.left, (race.right.step race.db).1, (race.right.step race.db).2⟩

/-- The statements of the two in an order; one that has ended does nothing. -/
def run (race : Race D α β) (order : List Bool) : Race D α β := order.foldl step race

/-- What every statement of either program preserves holds after any order. -/
theorem run_invariant {P : Race D α β → Prop} (hstep : ∀ race, P race → ∀ side, P (race.step side))
    {race : Race D α β} (h : P race) (order : List Bool) : P (race.run order) := by
  induction order generalizing race with
  | nil => exact h
  | cons side rest ih => exact ih (hstep race h side)

/-- The same race, with the sides exchanged. -/
def swap (race : Race D α β) : Race D β α := ⟨race.right, race.left, race.db⟩

theorem run_swap (race : Race D α β) (order : List Bool) :
    (race.run order).swap = race.swap.run (order.map not) := by
  induction order generalizing race with
  | nil => rfl
  | cons side rest ih =>
    have hstep : (race.step side).swap = race.swap.step (!side) := by
      cases side <;> rfl
    change ((race.step side).run rest).swap = (race.swap.step (!side)).run (rest.map not)
    rw [ih, hstep]

end Race

end AiosDeck.Storage
