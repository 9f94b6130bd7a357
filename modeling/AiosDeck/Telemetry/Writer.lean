import AiosDeck.Python.Deque
import AiosDeck.Python.Values

/-!
# The telemetry writer

A buffered batch writer: producers enqueue, any thread may flush, a worker
flushes in the background, and shutdown drains what is left. One step is
one access to the shared state between two points where another thread can
run. What the store does with a batch is left to the store.
-/

namespace AiosDeck.Telemetry

open Python

/-- One enqueued record. Its place in the order of enqueueing is kept only
to tell records apart. -/
structure Entry (R : Type) where
  seq : ℕ
  table : String
  record : R
  deriving DecidableEq, Repr

/-- `TelemetryError`. -/
abbrev telemetryError : ExcClass := .user "TelemetryError"

/-- `_is_locked`. -/
def isLocked (exc : PyExc) : Bool :=
  let message := exc.message.toList.map Char.toLower
  decide ("locked".toList <:+: message) || decide ("busy".toList <:+: message)

/-- `grouped.setdefault(table, []).append(record)`. -/
def addTo {R : Type} (entry : Entry R) :
    List (String × List (Entry R)) → List (String × List (Entry R))
  | [] => [(entry.table, [entry])]
  | (table, rows) :: rest =>
    if table = entry.table then (table, rows ++ [entry]) :: rest
    else (table, rows) :: addTo entry rest

/-- The batch by table, as `_write` groups it. -/
def grouped {R : Type} (batch : List (Entry R)) : List (String × List (Entry R)) :=
  batch.foldl (fun groups entry => addTo entry groups) []

/-- The rows of all groups, in the order in which they are inserted. -/
def rowsOf {R : Type} (groups : List (String × List (Entry R))) : List (Entry R) :=
  groups.flatMap Prod.snd

/-- A store, by what one transaction does: given what is committed, the
groups of a batch and a fault of the database, the rows it inserted, or the
exception after which it rolled everything back. -/
structure Store (R F : Type) where
  write : List (Entry R) → List (String × List (Entry R)) → F → Except PyExc (List (Entry R))

/-- Threads: the worker, and any number of clients. -/
inductive ThreadId where
  | worker
  | client (n : ℕ)
  deriving DecidableEq, Repr

/-- Who called `flush`. -/
inductive Caller where
  | client
  | worker
  | shutdown
  deriving DecidableEq, Repr

/-- Where a call of `flush` stands. -/
inductive FlushPhase where
  /-- Waiting for `flush_lock`. -/
  | entering
  /-- About to drain, after this many retries. -/
  | draining (attempt : ℕ)
  /-- The batch is in flight. -/
  | writing (attempt : ℕ)
  | requeueing (attempt : ℕ)
  | sleeping (attempt : ℕ)
  /-- About to update the counters after a commit of this many records. -/
  | counting (written : ℕ)
  | dropping
  /-- About to release `flush_lock` and return. -/
  | leaving
  /-- About to release `flush_lock` with an exception that nothing caught. -/
  | raising (exc : PyExc)
  | returned
  deriving DecidableEq, Repr

/-- Where a thread stands. -/
inductive Pc where
  | idle
  /-- The worker: `while not self._stop_event.is_set()`. -/
  | loopTest
  /-- `self._wake_event.wait(...)`. -/
  | loopWait
  /-- `self._wake_event.clear()`. -/
  | loopClear
  /-- `if not self._stop_event.is_set()`. -/
  | loopRetest
  /-- The worker has left its loop. -/
  | ended
  /-- Shutdown: `if self._shutdown`. -/
  | stopTest
  | stopMark
  | stopSet
  | stopWake
  /-- `self._thread.join(timeout=5)`. -/
  | stopJoin
  /-- In `flush`, called when this many records had been enqueued. -/
  | flushing (caller : Caller) (since : ℕ) (phase : FlushPhase)
  /-- An exception left `flush`; the worker is dead then. -/
  | raised (exc : PyExc)
  deriving DecidableEq, Repr

/-- Constructor arguments of the writer, but for the bound of the buffer. -/
structure Config where
  batchSize : ℕ := 50
  /-- `len(self._backoff)`. -/
  retries : ℕ := 3
  deriving DecidableEq, Repr

/-- What the threads share. -/
structure Shared (R : Type) (maxlen : ℕ) where
  buffer : Deque (Entry R) maxlen := .empty
  flushLock : Option ThreadId := none
  /-- The local batch of the thread that holds `flush_lock`. -/
  inFlight : List (Entry R) := []
  committed : List (Entry R) := []
  flushCount : ℕ := 0
  flushedTotal : ℕ := 0
  droppedTotal : ℕ := 0
  wake : Bool := false
  stop : Bool := false
  shutdown : Bool := false
  /-- All records ever enqueued, oldest first. -/
  enqueued : List (Entry R) := []
  /-- The records behind the drop counter. -/
  dropped : List (Entry R) := []

/-- The writer with its threads. -/
structure WriterState (R : Type) (maxlen : ℕ) where
  shared : Shared R maxlen := {}
  pc : ThreadId → Pc

/-- A new writer: its worker thread has started. -/
def WriterState.start {R : Type} {maxlen : ℕ} : WriterState R maxlen where
  pc := fun thread => if thread = .worker then .loopTest else .idle

namespace Shared

variable {R F : Type} {maxlen : ℕ}

/-- `enqueue`, under `buffer_lock`. -/
def enqueue (config : Config) (table : String) (record : R) (s : Shared R maxlen) :
    Shared R maxlen :=
  let entry : Entry R := ⟨s.enqueued.length, table, record⟩
  let buffer := s.buffer.append entry
  { s with
    buffer
    droppedTotal := if s.buffer.items.length = maxlen then s.droppedTotal + 1 else s.droppedTotal
    wake := if config.batchSize ≤ buffer.items.length then true else s.wake
    enqueued := s.enqueued ++ [entry]
    dropped := s.dropped ++ s.buffer.evictedBy entry }

/-- `_drain`. -/
def drain (s : Shared R maxlen) : Shared R maxlen :=
  { s with buffer := .empty, inFlight := s.buffer.items }

/-- `_requeue`. -/
def requeue (s : Shared R maxlen) : Shared R maxlen :=
  let overflow : ℤ := s.inFlight.length - (maxlen - s.buffer.items.length)
  { s with
    buffer := s.buffer.extendLeft s.inFlight.reverse
    inFlight := []
    droppedTotal := if 0 < overflow then s.droppedTotal + overflow.toNat else s.droppedTotal
    dropped := s.dropped ++ (s.inFlight ++ s.buffer.items).drop maxlen }

/-- The transaction committed these rows. -/
def commit (kept : List (Entry R)) (s : Shared R maxlen) : Shared R maxlen :=
  { s with committed := s.committed ++ kept, inFlight := [] }

/-- The counters of `_write`. -/
def count (written : ℕ) (s : Shared R maxlen) : Shared R maxlen :=
  { s with flushCount := s.flushCount + 1, flushedTotal := s.flushedTotal + written }

/-- `_drop`. -/
def drop (s : Shared R maxlen) : Shared R maxlen :=
  { s with
    droppedTotal := s.droppedTotal + s.inFlight.length
    dropped := s.dropped ++ s.inFlight
    inFlight := [] }

/-- The handlers of `flush`: retry, drop, or let the exception out. -/
def handle (config : Config) (attempt : ℕ) (exc : PyExc) : FlushPhase :=
  if exc.isSqlite then
    if isLocked exc && attempt < config.retries then .requeueing attempt else .dropping
  else if exc.cls = telemetryError then .dropping
  else .raising exc

/-- One step of `flush` by a thread. -/
def flushStep (store : Store R F) (config : Config) (thread : ThreadId) (fault : F)
    (s : Shared R maxlen) : FlushPhase → Option (FlushPhase × Shared R maxlen)
  | .entering =>
    match s.flushLock with
    | none => some (.draining 0, { s with flushLock := some thread })
    | some _ => none
  | .draining attempt =>
    some (if s.buffer.items.isEmpty then .leaving else .writing attempt, s.drain)
  | .writing attempt =>
    match store.write s.committed (grouped s.inFlight) fault with
    | .ok kept => some (.counting s.inFlight.length, s.commit kept)
    | .error exc => some (handle config attempt exc, s)
  | .requeueing attempt => some (.sleeping attempt, s.requeue)
  | .sleeping attempt => some (.draining (attempt + 1), s)
  | .counting written => some (.leaving, s.count written)
  | .dropping => some (.leaving, s.drop)
  | .leaving => some (.returned, { s with flushLock := none })
  | .raising _ => none
  | .returned => none

/-- Where a caller goes on after `flush` returned. -/
def afterFlush : Caller → Pc
  | .worker => .loopTest
  | .client | .shutdown => .idle

/-- One step of a thread. -/
def threadStep (store : Store R F) (config : Config) (thread : ThreadId) (fault : F)
    (s : Shared R maxlen) : Pc → Option (Pc × Shared R maxlen)
  | .loopTest => some (if s.stop then .ended else .loopWait, s)
  -- the wait ends by the event or by its timeout
  | .loopWait => some (.loopClear, s)
  | .loopClear => some (.loopRetest, { s with wake := false })
  | .loopRetest =>
    some (if s.stop then .loopTest else .flushing .worker s.enqueued.length .entering, s)
  | .stopTest => some (if s.shutdown then .idle else .stopMark, s)
  | .stopMark => some (.stopSet, { s with shutdown := true })
  | .stopSet => some (.stopWake, { s with stop := true })
  | .stopWake => some (.stopJoin, { s with wake := true })
  -- the join ends with the worker or by its timeout
  | .stopJoin => some (.flushing .shutdown s.enqueued.length .entering, s)
  | .flushing caller _ .returned => some (afterFlush caller, s)
  | .flushing _ _ (.raising exc) => some (.raised exc, { s with flushLock := none, inFlight := [] })
  | .flushing caller since phase =>
    (flushStep store config thread fault s phase).map fun next =>
      (.flushing caller since next.1, next.2)
  | .raised _ => if thread = .worker then none else some (.idle, s)
  | .idle | .ended => none

end Shared

/-- A step of the whole writer. -/
inductive Action (R F : Type) where
  | enqueue (table : String) (record : R)
  /-- An idle client calls `flush`. -/
  | flush (client : ℕ)
  /-- An idle client calls `shutdown`. -/
  | shutdown (client : ℕ)
  /-- A thread makes its next step; the fault matters only to a write. -/
  | advance (thread : ThreadId) (fault : F)

namespace WriterState

variable {R F : Type} {maxlen : ℕ}

/-- Put a thread somewhere. -/
def goto (s : WriterState R maxlen) (thread : ThreadId) (pc : Pc) : ThreadId → Pc :=
  fun other => if other = thread then pc else s.pc other

/-- One step of the writer, in any interleaving. -/
def step (store : Store R F) (config : Config) (s : WriterState R maxlen) :
    Action R F → Option (WriterState R maxlen)
  | .enqueue table record => some { s with shared := s.shared.enqueue config table record }
  | .flush client =>
    if s.pc (.client client) = .idle then
      some ⟨s.shared,
        s.goto (.client client) (.flushing .client s.shared.enqueued.length .entering)⟩
    else none
  | .shutdown client =>
    if s.pc (.client client) = .idle then
      some ⟨s.shared, s.goto (.client client) .stopTest⟩
    else none
  | .advance thread fault =>
    (s.shared.threadStep store config thread fault (s.pc thread)).map fun next =>
      ⟨next.2, s.goto thread next.1⟩

end WriterState

end AiosDeck.Telemetry
