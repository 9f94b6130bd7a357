import Mathlib
import AiosDeck.Storage.Sqlite

/-!
# Counting changes

What programs add to `total_changes` of the connection, when no statement fails.
-/

namespace AiosDeck.Storage

open Python

variable {D α β : Type} {db db' db'' : D} {n : ℕ}

/-- The program returns `a`, and its statements change so many rows. -/
def Counts (x : Sql D α) (n : ℕ) (db : D) (a : α) (db' : D) (changed : ℕ) : Prop :=
  x ⟨db, n, none⟩ = .ok a ⟨db', n + changed, none⟩

/-- The program returns `a`, whatever its statements change. -/
def Returns (x : Sql D α) (n : ℕ) (db : D) (a : α) (db' : D) : Prop :=
  ∃ m, x ⟨db, n, none⟩ = .ok a ⟨db', m, none⟩

theorem Counts.pure (a : α) (n : ℕ) (db : D) : Counts (Pure.pure a : Sql D α) n db a db 0 := rfl

/-- Changes add up. -/
theorem Counts.bind {x : Sql D α} {g : α → Sql D β} {a : α} {b : β} {changed more : ℕ}
    (hx : Counts x n db a db' changed) (hg : Counts (g a) (n + changed) db' b db'' more) :
    Counts (x >>= g) n db b db'' (changed + more) := by
  unfold Counts at hx hg ⊢
  change EStateM.bind x g _ = _
  unfold EStateM.bind
  rw [hx, ← Nat.add_assoc]
  exact hg

/-- Behind a program whose changes are counted, one that returns. -/
theorem Counts.bind_returns {x : Sql D α} {g : α → Sql D β} {a : α} {b : β} {changed : ℕ}
    (hx : Counts x n db a db' changed) (hg : Returns (g a) (n + changed) db' b db'') :
    Returns (x >>= g) n db b db'' := by
  obtain ⟨m, hm⟩ := hg
  refine ⟨m, ?_⟩
  change EStateM.bind x g _ = _
  unfold EStateM.bind
  rw [hx]
  exact hm

theorem Runs.returns {x : Sql D α} {k : ℕ} {a : α} (h : Runs x k db a db') (n : ℕ) :
    Returns x n db a db' := by
  obtain ⟨m, hm⟩ := h n none
  exact ⟨m, hm⟩

theorem Returns.pure (a : α) (n : ℕ) (db : D) : Returns (Pure.pure a : Sql D α) n db a db :=
  ⟨n, rfl⟩

/-- Two programs that return, one behind the other. -/
theorem Returns.bind {x : Sql D α} {g : α → Sql D β} {a : α} {b : β} (hx : Returns x n db a db')
    (hg : ∀ m, Returns (g a) m db' b db'') : Returns (x >>= g) n db b db'' := by
  obtain ⟨m, hm⟩ := hx
  obtain ⟨l, hl⟩ := hg m
  refine ⟨l, ?_⟩
  change EStateM.bind x g _ = _
  unfold EStateM.bind
  rw [hm]
  exact hl

theorem Returns.fetch (query : D → α) (fallback : α) (n : ℕ) (db : D) :
    Returns (fetch query fallback) n db (query db) db := ⟨n, rfl⟩

theorem Counts.execute {body : D → Except PyExc (D × ℕ)} {changed : ℕ}
    (h : body db = .ok (db', changed)) (n : ℕ) : Counts (execute body) n db () db' changed := by
  simp [Counts, Storage.execute, Session.fails, Session.countdown, h]

theorem Counts.fetch (query : D → α) (fallback : α) (n : ℕ) (db : D) :
    Counts (fetch query fallback) n db (query db) db 0 := rfl

theorem Counts.returns {x : Sql D α} {a : α} {changed : ℕ} (h : Counts x n db a db' changed) :
    Returns x n db a db' := ⟨_, h⟩

/-- The counter is what it was when the program started, and all changes since. -/
theorem Counts.totalChanges (n : ℕ) (db : D) :
    Counts (totalChanges : Sql D ℕ) n db n db 0 := rfl

/-- A program that raises does not return. -/
theorem Raises.not_ok {x : Sql D α} {k : ℕ} {exc : PyExc} {a : α}
    {s : Session D} (h : Raises x k db exc db') : x ⟨db, n, none⟩ ≠ .ok a s := by
  obtain ⟨m, hm⟩ := h n none
  intro hok
  have hraised : x ⟨db, n, none⟩ = .error exc ⟨db', m, none⟩ := hm
  rw [hraised] at hok
  cases hok

end AiosDeck.Storage
