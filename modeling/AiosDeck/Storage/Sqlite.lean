import AiosDeck.Logic.Program
import AiosDeck.Python.Values

/-!
# Autocommitted statements

The helpers every SQLite store shares. Each statement is a transaction of
its own, so a program that raises keeps what its earlier statements did. One
statement of a program may fail; reads swallow the failure, writes raise it.
-/

namespace AiosDeck.Storage

open Python

/-- A database behind its connection. -/
structure Session (D : Type) where
  db : D
  /-- `total_changes` of the connection. -/
  totalChanges : ℕ := 0
  /-- How many statements come before the one that fails, and its message. -/
  failing : Option (ℕ × String) := none

/-- Programs that issue statements. -/
abbrev Sql (D α : Type) := EStateM PyExc (Session D) α

variable {D α : Type}

/-- The failure of a statement. -/
def sqlError (message : String) : PyExc := ⟨.sqliteOperational, message⟩

/-- The message with which the next statement fails. -/
def Session.fails (s : Session D) : Option String :=
  match s.failing with
  | some (0, message) => some message
  | _ => none

/-- One statement less before the one that fails. -/
def Session.countdown (s : Session D) : Session D :=
  { s with failing := s.failing.map fun fault => (fault.1 - 1, fault.2) }

/-- `_execute`: the new database and the number of rows changed. -/
def execute (body : D → Except PyExc (D × ℕ)) : Sql D Unit := fun s =>
  match s.fails with
  | some message => .error (sqlError message) { s with failing := none }
  | none =>
    match body s.db with
    | .error exc => .error exc s.countdown
    | .ok (db, changed) =>
      .ok () { s.countdown with db, totalChanges := s.totalChanges + changed }

/-- `_fetch_one` and `_fetch_all`: a read that fails gives the fallback. -/
def fetch (query : D → α) (fallback : α) : Sql D α := fun s =>
  match s.fails with
  | some _ => .ok fallback { s with failing := none }
  | none => .ok (query s.db) s.countdown

/-- `self._conn.total_changes`. -/
def totalChanges : Sql D ℕ := fun s => .ok s.totalChanges s

/-- A parameter of a statement; one that cannot be built raises before it. -/
def parameter (x : Except PyExc α) : Sql D α := fun s =>
  match x with
  | .ok a => .ok a s
  | .error exc => .error exc s

/-- What a program returns or raises, and the database it leaves, when no
statement fails. -/
def outcome (x : Sql D α) (db : D) : Except PyExc α × D :=
  match x ⟨db, 0, none⟩ with
  | .ok a s => (.ok a, s.db)
  | .error exc s => (.error exc, s.db)

/-- Programs run `k` statements and return, whether a later one fails or not. -/
def Runs (x : Sql D α) (k : ℕ) (db : D) (a : α) (db' : D) : Prop :=
  ∀ n f, ∃ m, x ⟨db, n, f.map fun fault : ℕ × String => (fault.1 + k, fault.2)⟩ =
    .ok a ⟨db', m, f⟩

/-- As `Runs`, whatever is returned. -/
def Leaves (x : Sql D α) (k : ℕ) (db db' : D) : Prop :=
  ∀ n f, ∃ a m, x ⟨db, n, f.map fun fault : ℕ × String => (fault.1 + k, fault.2)⟩ =
    .ok a ⟨db', m, f⟩

/-- Programs run `k` statements and raise without the failure of one. -/
def Raises (x : Sql D α) (k : ℕ) (db : D) (exc : PyExc) (db' : D) : Prop :=
  ∀ n f, ∃ m, x ⟨db, n, f.map fun fault : ℕ × String => (fault.1 + k, fault.2)⟩ =
    .error exc ⟨db', m, f⟩

/-- When the statement after `k` others fails, the program raises its error. -/
def Breaks (x : Sql D α) (k : ℕ) (db db' : D) : Prop :=
  ∀ n message, ∃ m, x ⟨db, n, some (k, message)⟩ = .error (sqlError message) ⟨db', m, none⟩

section Rules

variable {β : Type} {db db' db'' : D}

/-- Statements before a failure add up. -/
theorem shift_add (f : Option (ℕ × String)) (j k : ℕ) :
    (f.map fun fault : ℕ × String => (fault.1 + (j + k), fault.2)) =
      (f.map fun fault : ℕ × String => (fault.1 + k, fault.2)).map
        fun fault : ℕ × String => (fault.1 + j, fault.2) := by
  cases f with
  | none => rfl
  | some fault => simp [Nat.add_comm, Nat.add_left_comm]

theorem Runs.pure (a : α) (db : D) : Runs (Pure.pure a : Sql D α) 0 db a db := by
  intro n f
  refine ⟨n, ?_⟩
  cases f <;> rfl

theorem Runs.bind {x : Sql D α} {g : α → Sql D β} {j k : ℕ} {a : α} {b : β}
    (hx : Runs x j db a db') (hg : Runs (g a) k db' b db'') : Runs (x >>= g) (j + k) db b db'' := by
  intro n f
  obtain ⟨m, hm⟩ := hx n (f.map fun fault : ℕ × String => (fault.1 + k, fault.2))
  obtain ⟨l, hl⟩ := hg m f
  refine ⟨l, ?_⟩
  change EStateM.bind x g _ = _
  rw [shift_add]
  unfold EStateM.bind
  rw [hm]
  exact hl

theorem Runs.leaves {x : Sql D α} {k : ℕ} {a : α} (h : Runs x k db a db') : Leaves x k db db' := by
  intro n f
  obtain ⟨m, hm⟩ := h n f
  exact ⟨a, m, hm⟩

theorem Leaves.bind {x : Sql D α} {g : α → Sql D β} {j k : ℕ} (hx : Leaves x j db db')
    (hg : ∀ a, Leaves (g a) k db' db'') : Leaves (x >>= g) (j + k) db db'' := by
  intro n f
  obtain ⟨a, m, hm⟩ := hx n (f.map fun fault : ℕ × String => (fault.1 + k, fault.2))
  obtain ⟨b, l, hl⟩ := hg a m f
  refine ⟨b, l, ?_⟩
  change EStateM.bind x g _ = _
  rw [shift_add]
  unfold EStateM.bind
  rw [hm]
  exact hl

theorem Runs.bind_leaves {x : Sql D α} {g : α → Sql D β} {j k : ℕ} {a : α}
    (hx : Runs x j db a db') (hg : Leaves (g a) k db' db'') : Leaves (x >>= g) (j + k) db db'' := by
  intro n f
  obtain ⟨m, hm⟩ := hx n (f.map fun fault : ℕ × String => (fault.1 + k, fault.2))
  obtain ⟨b, l, hl⟩ := hg m f
  refine ⟨b, l, ?_⟩
  change EStateM.bind x g _ = _
  rw [shift_add]
  unfold EStateM.bind
  rw [hm]
  exact hl

theorem Leaves.totalChanges (db : D) : Leaves (totalChanges : Sql D ℕ) 0 db db := by
  intro n f
  refine ⟨n, n, ?_⟩
  cases f <;> rfl

theorem Raises.bind_left {x : Sql D α} {g : α → Sql D β} {k : ℕ} {exc : PyExc}
    (hx : Raises x k db exc db') : Raises (x >>= g) k db exc db' := by
  intro n f
  obtain ⟨m, hm⟩ := hx n f
  refine ⟨m, ?_⟩
  change EStateM.bind x g _ = _
  unfold EStateM.bind
  rw [hm]

theorem Raises.bind_right {x : Sql D α} {g : α → Sql D β} {j k : ℕ} {a : α} {exc : PyExc}
    (hx : Runs x j db a db') (hg : Raises (g a) k db' exc db'') :
    Raises (x >>= g) (j + k) db exc db'' := by
  intro n f
  obtain ⟨m, hm⟩ := hx n (f.map fun fault : ℕ × String => (fault.1 + k, fault.2))
  obtain ⟨l, hl⟩ := hg m f
  refine ⟨l, ?_⟩
  change EStateM.bind x g _ = _
  rw [shift_add]
  unfold EStateM.bind
  rw [hm]
  exact hl

theorem Leaves.bind_raises {x : Sql D α} {g : α → Sql D β} {j k : ℕ} {exc : PyExc}
    (hx : Leaves x j db db') (hg : ∀ a, Raises (g a) k db' exc db'') :
    Raises (x >>= g) (j + k) db exc db'' := by
  intro n f
  obtain ⟨a, m, hm⟩ := hx n (f.map fun fault : ℕ × String => (fault.1 + k, fault.2))
  obtain ⟨l, hl⟩ := hg a m f
  refine ⟨l, ?_⟩
  change EStateM.bind x g _ = _
  rw [shift_add]
  unfold EStateM.bind
  rw [hm]
  exact hl

theorem Breaks.bind_left {x : Sql D α} {g : α → Sql D β} {k : ℕ} (hx : Breaks x k db db') :
    Breaks (x >>= g) k db db' := by
  intro n message
  obtain ⟨m, hm⟩ := hx n message
  refine ⟨m, ?_⟩
  change EStateM.bind x g _ = _
  unfold EStateM.bind
  rw [hm]

theorem Breaks.bind_right {x : Sql D α} {g : α → Sql D β} {j k : ℕ} {a : α}
    (hx : Runs x j db a db') (hg : Breaks (g a) k db' db'') : Breaks (x >>= g) (j + k) db db'' := by
  intro n message
  obtain ⟨m, hm⟩ := hx n (some (k, message))
  obtain ⟨l, hl⟩ := hg m message
  refine ⟨l, ?_⟩
  change EStateM.bind x g _ = _
  unfold EStateM.bind
  have hfaults : (some (k, message)).map (fun fault : ℕ × String => (fault.1 + j, fault.2)) =
      some (j + k, message) := by simp [Nat.add_comm]
  rw [hfaults] at hm
  rw [hm]
  exact hl

theorem Runs.execute {body : D → Except PyExc (D × ℕ)} {changed : ℕ}
    (h : body db = .ok (db', changed)) : Runs (execute body) 1 db () db' := by
  intro n f
  refine ⟨n + changed, ?_⟩
  cases f <;> simp [Storage.execute, Session.fails, Session.countdown, h]

theorem Raises.execute {body : D → Except PyExc (D × ℕ)} {exc : PyExc}
    (h : body db = .error exc) : Raises (execute body) 1 db exc db := by
  intro n f
  refine ⟨n, ?_⟩
  cases f <;> simp [Storage.execute, Session.fails, Session.countdown, h]

theorem Breaks.execute (body : D → Except PyExc (D × ℕ)) (db : D) :
    Breaks (execute body) 0 db db := by
  intro n message
  exact ⟨n, rfl⟩

theorem Runs.fetch (query : D → α) (fallback : α) (db : D) :
    Runs (fetch query fallback) 1 db (query db) db := by
  intro n f
  refine ⟨n, ?_⟩
  cases f <;> simp [Storage.fetch, Session.fails, Session.countdown]

theorem Runs.parameter {x : Except PyExc α} {a : α} (h : x = .ok a) (db : D) :
    Runs (parameter x) 0 db a db := by
  intro n f
  refine ⟨n, ?_⟩
  cases f <;> simp [Storage.parameter, h]

theorem Raises.parameter {x : Except PyExc α} {exc : PyExc} (h : x = .error exc) (db : D) :
    Raises (parameter x : Sql D α) 0 db exc db := by
  intro n f
  refine ⟨n, ?_⟩
  cases f <;> simp [Storage.parameter, h]

theorem Raises.throw (exc : PyExc) (db : D) : Raises (throw exc : Sql D α) 0 db exc db := by
  intro n f
  refine ⟨n, ?_⟩
  cases f <;> rfl

theorem Runs.outcome {x : Sql D α} {k : ℕ} {a : α} (h : Runs x k db a db') :
    outcome x db = (.ok a, db') := by
  obtain ⟨m, hm⟩ := h 0 none
  have hrun : x ⟨db, 0, none⟩ = .ok a ⟨db', m, none⟩ := hm
  unfold Storage.outcome
  rw [hrun]

theorem Leaves.outcome {x : Sql D α} {k : ℕ} (h : Leaves x k db db') : (outcome x db).2 = db' := by
  obtain ⟨a, m, hm⟩ := h 0 none
  have hrun : x ⟨db, 0, none⟩ = .ok a ⟨db', m, none⟩ := hm
  unfold Storage.outcome
  rw [hrun]

theorem Raises.outcome {x : Sql D α} {k : ℕ} {exc : PyExc} (h : Raises x k db exc db') :
    outcome x db = (.error exc, db') := by
  obtain ⟨m, hm⟩ := h 0 none
  have hrun : x ⟨db, 0, none⟩ = .error exc ⟨db', m, none⟩ := hm
  unfold Storage.outcome
  rw [hrun]

end Rules

end AiosDeck.Storage
