import AiosDeck.Storage.Sqlite

/-!
# Transactions on a shared connection

A block begins a transaction, runs its body on the working copy, and commits
or rolls back. The one exit that does neither is a `COMMIT` that fails: the
transaction stays open, and the next block on the connection cannot begin.
-/

namespace AiosDeck.Storage

open Python Program

/-- A connection: what the database holds, and the working copy of the open
transaction, when there is one. -/
structure Connection (D : Type) where
  committed : D
  pending : Option D := none

/-- A connection that was just opened. -/
def Connection.opened {D : Type} (db : D) : Connection D := { committed := db }

/-- Programs over a connection. -/
abbrev Transact (D α : Type) := EStateM PyExc (Connection D) α

section Statements

variable {D α : Type}

/-- `BEGIN IMMEDIATE`, with the message when the database is locked. -/
def beginImmediate (fault : Option String) : Transact D Unit := fun c =>
  match c.pending with
  | some _ => .error (sqlError "cannot start a transaction within a transaction") c
  | none =>
    match fault with
    | some message => .error (sqlError message) c
    | none => .ok () { c with pending := some c.committed }

/-- `COMMIT`; one that fails leaves its transaction open. -/
def commit (fault : Option String) : Transact D Unit := fun c =>
  match c.pending with
  | none => .error (sqlError "cannot commit - no transaction is active") c
  | some db =>
    match fault with
    | some message => .error (sqlError message) c
    | none => .ok () { committed := db }

/-- `ROLLBACK`. -/
def rollback : Transact D Unit := fun c =>
  match c.pending with
  | none => .error (sqlError "cannot rollback - no transaction is active") c
  | some _ => .ok () { c with pending := none }

/-- Statements that reach the working copy of the open transaction, and the
database itself where there is none. -/
def issue (body : EStateM PyExc D α) : Transact D α := fun c =>
  match c.pending with
  | some db =>
    match body db with
    | .ok value db' => .ok value { c with pending := some db' }
    | .error exc db' => .error exc { c with pending := some db' }
  | none =>
    match body c.committed with
    | .ok value db' => .ok value { committed := db' }
    | .error exc db' => .error exc { committed := db' }

end Statements

/-- One use of `atomic()`: its body, and the messages with which `BEGIN` and
`COMMIT` fail, when they do. -/
structure Block (D : Type) where
  body : EStateM PyExc D Unit
  begins : Option String := none
  commits : Option String := none

/-- `ThreadSafeConnection.atomic`. -/
def atomic {D : Type} (block : Block D) : Transact D Unit := do
  beginImmediate block.begins
  tryCatch (issue block.body) fun exc => do
    rollback
    throw exc
  commit block.commits

/-- One use of a shared connection, by any of its owners. -/
inductive Use (D : Type) where
  | atomic (block : Block D)
  /-- Statements outside of every block. -/
  | plain (body : EStateM PyExc D Unit)

/-- The connection behind one use. -/
def Connection.use {D : Type} (c : Connection D) : Use D → Connection D
  | .atomic block => after (Storage.atomic block) c
  | .plain body => after (issue body) c

/-- The connection behind uses in this order. -/
def Connection.run {D : Type} (c : Connection D) (uses : List (Use D)) : Connection D :=
  uses.foldl Connection.use c

section Scope

variable {D : Type}

/-- A block is over: no transaction is open, and of its writes the database
holds all or none. -/
structure Scoped (block : Block D) (c c' : Connection D) : Prop where
  closed : c'.pending = none
  atomic : c'.committed = c.committed ∨ block.body c.committed = .ok () c'.committed

/-- The body of the block returns, and the `COMMIT` behind it fails. -/
def Block.FailsToCommit (block : Block D) (c : Connection D) : Prop :=
  block.begins = none ∧ (∃ db, block.body c.committed = .ok () db) ∧ block.commits.isSome = true

/-- A block on a connection without an open transaction, exit by exit. -/
theorem atomic_exits (block : Block D) {c : Connection D} (h : c.pending = none) :
    atomic block c =
      match block.begins with
      | some message => .error (sqlError message) c
      | none =>
        match block.body c.committed with
        | .error exc _ => .error exc c
        | .ok _ db =>
          match block.commits with
          | some message => .error (sqlError message) { c with pending := some db }
          | none => .ok () { committed := db } := by
  obtain ⟨committed, pending⟩ := c
  cases h
  obtain ⟨body, begins, commits⟩ := block
  cases begins with
  | some message => rfl
  | none =>
    have hblock : atomic ⟨body, none, commits⟩ (⟨committed, none⟩ : Connection D) =
        (tryCatch (issue body) (fun exc => rollback >>= fun _ => throw exc) >>= fun _ =>
          commit commits) ⟨committed, some committed⟩ := rfl
    rw [hblock]
    simp only [Bind.bind, EStateM.bind, tryCatch, tryCatchThe, MonadExceptOf.tryCatch,
      EStateM.tryCatch, issue]
    cases body committed with
    | error exc db => rfl
    | ok value db => cases commits <;> rfl

/-- A block leaves its scope clean unless its `COMMIT` fails. -/
theorem atomic_scoped_iff (block : Block D) {c : Connection D} (h : c.pending = none) :
    Scoped block c (c.use (.atomic block)) ↔ ¬block.FailsToCommit c := by
  have huse : c.use (.atomic block) = after (atomic block) c := rfl
  rw [huse]
  unfold after Block.FailsToCommit
  rw [atomic_exits block h]
  cases hbegins : block.begins with
  | some message => exact iff_of_true ⟨h, .inl rfl⟩ fun hfails => by cases hfails.1
  | none =>
    cases hbody : block.body c.committed with
    | error exc db =>
      refine iff_of_true ⟨h, .inl rfl⟩ fun hfails => ?_
      obtain ⟨-, ⟨other, hother⟩, -⟩ := hfails
      cases hother
    | ok value db =>
      cases hcommits : block.commits with
      | none => exact iff_of_true ⟨rfl, .inr hbody⟩ fun hfails => by cases hfails.2.2
      | some message =>
        refine iff_of_false (fun hscoped => ?_) fun hnot => hnot ⟨rfl, ⟨db, rfl⟩, rfl⟩
        cases hscoped.closed

/-- While a transaction is open no block begins. -/
theorem atomic_refused (block : Block D) {c : Connection D} {db : D} (h : c.pending = some db) :
    atomic block c = .error (sqlError "cannot start a transaction within a transaction") c := by
  obtain ⟨committed, pending⟩ := c
  cases h
  rfl

/-- Statements outside of every block open no transaction. -/
theorem plain_closed (body : EStateM PyExc D Unit) {c : Connection D} (h : c.pending = none) :
    (c.use (.plain body)).pending = none := by
  have huse : c.use (.plain body) = after (issue body) c := rfl
  rw [huse]
  unfold after issue
  rw [h]
  cases body c.committed <;> rfl

theorem Connection.run_append (c : Connection D) (front rest : List (Use D)) :
    c.run (front ++ rest) = (c.run front).run rest := List.foldl_append

/-- Where no block leaves a transaction open, none is open after the run. -/
theorem run_closed {c : Connection D} (h : c.pending = none) {uses : List (Use D)}
    (hblocks : ∀ front block rest, uses = front ++ .atomic block :: rest →
      (c.run front).pending = none → ((c.run front).use (.atomic block)).pending = none) :
    (c.run uses).pending = none := by
  induction uses using List.reverseRecOn with
  | nil => exact h
  | append_singleton uses last ih =>
    have hclosed : (c.run uses).pending = none := by
      refine ih fun front block rest heq => hblocks front block (rest ++ [last]) ?_
      rw [heq, List.append_assoc]
      rfl
    rw [Connection.run_append]
    cases last with
    | atomic block => exact hblocks uses block [] rfl hclosed
    | plain body => exact plain_closed body hclosed

/-- Over all uses of a shared connection: every block leaves no transaction
open and all or none of its writes, exactly when no `COMMIT` behind a body
that returned fails. -/
theorem run_scoped_iff (db : D) (uses : List (Use D)) :
    (∀ front block rest, uses = front ++ .atomic block :: rest →
        Scoped block ((Connection.opened db).run front)
          (((Connection.opened db).run front).use (.atomic block))) ↔
      ∀ front block rest, uses = front ++ .atomic block :: rest →
        ¬block.FailsToCommit ((Connection.opened db).run front) := by
  have hopened : (Connection.opened db).pending = none := rfl
  constructor
  · intro hscoped front block rest heq
    have hclosed : ((Connection.opened db).run front).pending = none := by
      refine run_closed hopened fun front' block' rest' heq' _ => ?_
      refine (hscoped front' block' (rest' ++ .atomic block :: rest) ?_).closed
      rw [heq, heq', List.append_assoc]
      rfl
    exact (atomic_scoped_iff block hclosed).mp (hscoped front block rest heq)
  · intro hcommits front block rest heq
    have hclosed : ((Connection.opened db).run front).pending = none := by
      refine run_closed hopened fun front' block' rest' heq' hbefore => ?_
      refine ((atomic_scoped_iff block' hbefore).mpr ?_).closed
      refine hcommits front' block' (rest' ++ .atomic block :: rest) ?_
      rw [heq, heq', List.append_assoc]
      rfl
    exact (atomic_scoped_iff block hclosed).mpr (hcommits front block rest heq)

/-- A block that writes one row. -/
def rowBlock (row : ℕ) (commits : Option String := none) : Block (List ℕ) where
  body := modify fun rows => rows ++ [row]
  commits := commits

theorem not_scoped_locked :
    ¬∀ front block rest,
      [Use.atomic (rowBlock 1 (some "database is locked")), Use.atomic (rowBlock 2)] =
          front ++ .atomic block :: rest →
        Scoped block ((Connection.opened []).run front)
          (((Connection.opened []).run front).use (.atomic block)) := by
  intro h
  cases (h [] _ _ rfl).closed

end Scope

end AiosDeck.Storage
