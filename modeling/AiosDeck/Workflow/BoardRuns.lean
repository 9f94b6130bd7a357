import AiosDeck.Workflow.BoardRows

/-!
# The board of a whole run

From a store without a board for the run to the board that a run leaves, in
whatever way it ends.
-/

namespace AiosDeck.Workflow

open Python Agents Security Quality Scheduler Program KanbanState

/-- The subtasks over which the engine iterates. -/
def Lists (plan : Json) (items : List Json) : Prop :=
  ∃ subtasks, plan.getD "subtasks" (.arr []) = .ok subtasks ∧ subtasks.iter = .ok items

/-- A plan whose subtasks can become cards and tasks. -/
def WellFormed (plan : Json) : Prop :=
  ∃ items, Lists plan items ∧ (∀ subtask ∈ items, Describable subtask) ∧ Workable items

/-- The planner hands on this plan whenever it succeeds. -/
def World.Plans (world : World) (plan : Json) : Prop :=
  ∀ trace attempt result, (world.agentRun trace .planner).behaviour attempt = .returned result →
    result.success = true → result.output = .json plan

/-- The run has no board, or a board whose rows follow the developer. -/
def Standing (projectId : String) (listed : List Json → Prop) (s : EngineState) : Prop :=
  Unboarded s ∨ ∃ items fresh, listed items ∧ (∀ card ∈ fresh, IsFresh projectId card) ∧
    Underway projectId items fresh s

theorem Standing.mono {projectId : String} {listed listed' : List Json → Prop} {s : EngineState}
    (hlisted : ∀ items, listed items → listed' items) (h : Standing projectId listed s) :
    Standing projectId listed' s := by
  rcases h with h | ⟨items, fresh, hitems, hfresh, h⟩
  · exact .inl h
  · exact .inr ⟨items, fresh, hlisted items hitems, hfresh, h⟩

/-- Iteration and length are defined for the same values. -/
theorem len_of_iter {subtasks : Json} {items : List Json} (h : subtasks.iter = .ok items) :
    ∃ count, subtasks.len = .ok count := by
  cases subtasks with
  | str text => exact ⟨_, rfl⟩
  | arr list => exact ⟨_, rfl⟩
  | obj fields => exact ⟨_, rfl⟩
  | _ => cases h

namespace WorkflowEngine

variable {engine : WorkflowEngine} {world : World} {plan : Json} {promised : Prop}

section Planned

variable (hworld : promised → Conforming engine world)
  (hplan : promised → world.Plans plan ∧ WellFormed plan)
include hworld hplan

/-- The planner's subtasks are those of the plan, if it keeps its promise. -/
theorem plannerPhase_run (task : Task) :
    Triple (Holding promised Unboarded) (plannerPhase engine world task)
      (fun subtasks s => (promised → plan.getD "subtasks" (.arr []) = .ok subtasks) ∧
        Holding promised Unboarded s) (Ending promised Unboarded) := by
  have hplanner : engine.planner ∈ engine.agents := by simp [agents]
  refine runShared_calm unboarded_onBoard hworld rfl hplanner _ _ _ _ _ (fun _ _ hs => hs) ?_
  intro request result hanswer
  refine Triple.ite (fun hsuccess => ?_) fun _ => ?_
  · have houtput : promised → result.output = .json plan := by
      intro h
      rcases hanswer with ⟨hfailed, -⟩ | ⟨-, trace, attempt, returned, hreturned, hs, ho⟩
      · rw [hfailed] at hsuccess
        cases hsuccess
      · rw [ho]
        exact (hplan h).1 trace attempt returned hreturned (hs ▸ hsuccess)
    refine liftPy_then (fun h => ?_) (fun _ hs => hs) fun found hfound => ?_
    · rw [houtput h]
      exact ⟨plan, rfl⟩
    have hfoundPlan : promised → found = plan := by
      intro h
      rw [houtput h] at hfound
      exact (Except.ok.inj hfound).symm
    refine Triple.bind (Calm.update unboarded_onBoard (fun _ => rfl) fun _ => rfl) fun _ => ?_
    refine liftPy_then (fun h => ?_) (fun _ hs => hs) fun subtasks hsubtasks => ?_
    · obtain ⟨items, ⟨subtasks, hget, -⟩, -⟩ := (hplan h).2
      rw [hfoundPlan h]
      exact ⟨subtasks, hget⟩
    have hlisted : promised → plan.getD "subtasks" (.arr []) = .ok subtasks := by
      intro h
      rw [hfoundPlan h] at hsubtasks
      exact hsubtasks
    refine liftPy_then (fun h => ?_) (fun _ hs => hs) fun count _ => ?_
    · obtain ⟨items, ⟨subtasks', hget, hiter⟩, -⟩ := (hplan h).2
      rw [hlisted h] at hget
      cases hget
      exact len_of_iter hiter
    refine Triple.bind (Calm.update unboarded_onBoard (fun _ => rfl) fun _ => rfl) fun _ => ?_
    refine Triple.bind (Calm.appendStage unboarded_onBoard hworld _) fun _ => ?_
    exact Triple.pure fun s hs => ⟨hlisted, hs⟩
  · exact Calm.fail_stops unboarded_onBoard hworld _ _

/-- Every end of a run leaves the board standing. -/
theorem pipeline_run (hstore : engine.scheduler.fault = fun _ => none) (task : Task)
    (createBranch : Bool) :
    Triple (Holding promised Unboarded) (pipeline engine world task createBranch)
      (fun _ s => Standing engine.scheduler.projectId (fun items => promised → Lists plan items) s)
      (Stopped promised
        (Standing engine.scheduler.projectId fun items => promised → Lists plan items)
        (Standing engine.scheduler.projectId fun _ => True)) := by
  have hunboarded : ∀ stop s, Ending promised Unboarded stop s → Stopped promised
      (Standing engine.scheduler.projectId fun items => promised → Lists plan items)
      (Standing engine.scheduler.projectId fun _ => True) stop s :=
    Stopped.mono (fun _ hs => .inl hs) fun _ hs => .inl hs
  have hcalm : ∀ {α : Type} {x : EngineM α}, Calm promised Unboarded x →
      Triple (Holding promised Unboarded) x (fun _ => Holding promised Unboarded)
        (Stopped promised
          (Standing engine.scheduler.projectId fun items => promised → Lists plan items)
          (Standing engine.scheduler.projectId fun _ => True)) :=
    fun hx => hx.conseq (fun _ hs => hs) (fun _ _ hs => hs) hunboarded
  have hstarted : Calm promised Unboarded (publishStarted engine world) :=
    Calm.ite (fun _ => Calm.pure _) fun _ => Calm.publishQuality unboarded_onBoard _
  -- behind the scheduler the board has rows, and only the developer changes them
  have hbuild : ∀ subtasks, (promised → plan.getD "subtasks" (.arr []) = .ok subtasks) →
      Triple (Holding promised Unboarded)
        (implement engine world createBranch subtasks >>= fun _ => deliver engine world)
        (fun _ s => Standing engine.scheduler.projectId (fun items => promised → Lists plan items) s)
        (Stopped promised
          (Standing engine.scheduler.projectId fun items => promised → Lists plan items)
          (Standing engine.scheduler.projectId fun _ => True)) := by
    intro subtasks hsubtasks
    have hiter : promised → ∃ items, subtasks.iter = .ok items ∧
        (∀ subtask ∈ items, Describable subtask) ∧ Workable items := by
      intro h
      obtain ⟨items, ⟨subtasks', hget, hiter⟩, hall⟩ := (hplan h).2
      rw [hsubtasks h] at hget
      cases hget
      exact ⟨items, hiter, hall⟩
    refine Triple.bind (R := fun _ s => Standing engine.scheduler.projectId
      (fun items => promised → Lists plan items) s ∧ ∃ items fresh, (promised → Lists plan items) ∧
        (∀ card ∈ fresh, IsFresh engine.scheduler.projectId card) ∧
        Holding promised (OnRows engine.scheduler.projectId items (mirrored fresh items.length)
          items.length items.length) s) ?_ fun _ => ?_
    · refine Triple.bind (hcalm (branchPhase_calm unboarded_onBoard hworld createBranch)) fun _ => ?_
      refine Triple.bind ((schedulerPhase_run hworld hstore fun h => ?_).conseq
        (fun _ hs => hs) (fun _ _ hs => hs) (Stopped.mono (fun _ h => h.elim) ?_)) fun items => ?_
      · obtain ⟨items, hlist, hdescribed, -⟩ := hiter h
        exact ⟨items, hlist, hdescribed⟩
      · rintro s ⟨items, board, K, cards, fresh, hfresh, hboarded, hshows⟩
        refine .inr ⟨items, fresh, trivial, hfresh, fresh, 0, 0, Nat.zero_le _, ?_, K, board, cards, hboarded, hshows⟩
        have hbetween : Partly fresh 0 (mirrored fresh 0) := .between
        rwa [mirrored_zero] at hbetween
      refine Triple.of_pre fun hitems => ?_
      have hlists : promised → Lists plan items := fun h => ⟨subtasks, hsubtasks h, hitems⟩
      have hworkable : promised → Workable items := by
        intro h
        obtain ⟨items', hiter', -, hworkable⟩ := hiter h
        rw [hitems] at hiter'
        cases hiter'
        exact hworkable
      rintro s ⟨⟨board, K, cards, fresh, hfresh, hboarded, hshows⟩, hread⟩
      have hstanding : ∀ t, Underway engine.scheduler.projectId items fresh t →
          Standing engine.scheduler.projectId (fun items => promised → Lists plan items) t :=
        fun t ht => .inr ⟨items, fresh, hlists, hfresh, ht⟩
      have hrest : ∀ stop t, Stopped promised (Ended engine.scheduler.projectId items fresh)
          (Underway engine.scheduler.projectId items fresh) stop t → Stopped promised
            (Standing engine.scheduler.projectId fun items => promised → Lists plan items)
            (Standing engine.scheduler.projectId fun _ => True) stop t :=
        Stopped.mono (fun t ht => hstanding t ht.underway)
          fun t ht => (hstanding t ht).mono fun _ _ => trivial
      have hdevelop := developerPhase_run hworld hstore (fun card hcard => (hfresh card hcard).backlog)
        hworkable
      have hexamine := examine_calm (onRows_onBoard engine.scheduler.projectId items
        (mirrored fresh items.length) items.length items.length) hworld
      have hdone : ∀ t, OnRows engine.scheduler.projectId items (mirrored fresh items.length)
          items.length items.length t → Underway engine.scheduler.projectId items fresh t :=
        fun t ht => ⟨_, _, _, le_rfl, .between, ht⟩
      refine (Triple.bind (hdevelop.conseq (fun _ hs => hs) (fun _ _ hs => hs) hrest) fun _ =>
        hexamine.conseq (fun _ hs => hs) ?_ ?_) s ⟨⟨K, board, cards, hboarded, hshows⟩, hread⟩
      · exact fun _ t ht => ⟨hstanding t (hdone t ht.1), items, fresh, hlists, hfresh, ht⟩
      · exact Stopped.mono (fun t ht => hstanding t (hdone t ht))
          fun t ht => (hstanding t (hdone t ht)).mono fun _ _ => trivial
    · rintro s ⟨-, items, fresh, hlists, hfresh, hs⟩
      have hstanding : ∀ t, OnRows engine.scheduler.projectId items (mirrored fresh items.length)
          items.length items.length t →
          Standing engine.scheduler.projectId (fun items => promised → Lists plan items) t :=
        fun t ht => .inr ⟨items, fresh, hlists, hfresh, _, _, _, le_rfl, .between, ht⟩
      refine ((deliver_calm (onRows_onBoard _ _ _ _ _) hworld).conseq (fun _ ht => ht) ?_ ?_) s hs
      · exact fun _ t ht => hstanding t ht.1
      · exact Stopped.mono hstanding fun t ht => (hstanding t ht).mono fun _ _ => trivial
  have hprepare : pipeline engine world task createBranch = (do
      publishStarted engine world
      researchPhase engine world task
      let subtasks ← plannerPhase engine world task
      (implement engine world createBranch subtasks >>= fun _ => deliver engine world)) := by
    simp only [pipeline, prepare, bind_assoc]
  rw [hprepare]
  refine Triple.bind (hcalm hstarted) fun _ => ?_
  refine Triple.bind (hcalm (researchPhase_calm unboarded_onBoard hworld task)) fun _ => ?_
  refine Triple.bind ((plannerPhase_run hworld hplan task).conseq (fun _ hs => hs)
    (fun _ _ hs => hs) hunboarded) fun subtasks => ?_
  exact Triple.of_pre fun hsubtasks => hbuild subtasks hsubtasks

end Planned

end WorkflowEngine

end AiosDeck.Workflow
