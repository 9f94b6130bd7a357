import AiosDeck.Logic.Overrides
import AiosDeck.Python.Text

/-!
# The event bus

Subscriptions are kept by topic. A published event goes to the subscriptions of its topic
and then, pattern by pattern, to those of the patterns that cover it, whatever the handlers
do in the meantime.
-/

namespace AiosDeck.Events

open Python Overrides

variable {H P S : Type}

section Table

variable [DecidableEq H]

/-- `_subscribers`: the handlers of every topic that has come up. -/
abbrev Bus (H : Type) := List (Text × List H)

namespace Bus

/-- `self._subscribers.get(topic, [])`. -/
def handlers (bus : Bus H) (topic : Text) : List H := (bus.lookup topic).getD []

/-- `subscribe`. -/
def subscribe (bus : Bus H) (topic : Text) (handler : H) : Bus H :=
  insert topic (bus.handlers topic ++ [handler]) bus

/-- `unsubscribe`: looking a topic up enters it. -/
def unsubscribe (bus : Bus H) (topic : Text) (handler : H) : Bus H :=
  insert topic ((bus.handlers topic).erase handler) bus

/-- `subscriber_count`. -/
def subscriberCount (bus : Bus H) (topic : Option Text) : ℕ :=
  match topic with
  | none | some [] => (bus.map fun entry => entry.2.length).sum
  | some topic => (bus.handlers topic).length

end Bus

/-- A pattern `prefix.*` covers the topics that begin so. -/
def covers (pattern topic : Text) : Bool :=
  ".*".toList.isSuffixOf pattern && pattern.dropLast.isPrefixOf topic

/-- `_resolve_handlers`. -/
def resolveHandlers (bus : Bus H) (topic : Text) : List H :=
  bus.handlers topic ++ (bus.filter fun entry => covers entry.1 topic).flatMap Prod.snd

end Table

section Delivery

/-- `Event`. -/
structure Event (P : Type) where
  topic : Text
  payload : P
  correlationId : Text
  deriving DecidableEq

/-- How the call of a handler ends. -/
inductive Ending where
  | returns
  /-- With an `Exception`. -/
  | raises
  /-- With what is raised to end the program. -/
  | interrupts
  deriving DecidableEq

/-- What a delivery did: the calls made, whether it was broken off, and the state behind it. -/
structure Delivered (H P S : Type) where
  calls : List (H × Event P)
  raised : Bool
  state : S

/-- The calls of the handlers, one after the other. -/
def deliver (call : H → Event P → S → Ending × S) (event : Event P) :
    List H → S → Delivered H P S
  | [], state => ⟨[], false, state⟩
  | handler :: rest, state =>
    match call handler event state with
    | (.interrupts, state) => ⟨[(handler, event)], true, state⟩
    | (_, state) =>
      let done := deliver call event rest state
      { done with calls := (handler, event) :: done.calls }

/-- `publish`, on a state that holds the bus; handlers may change it. Topics that are not
known are only warned of. -/
def publish (bus : S → Bus H) (call : H → Event P → S → Ending × S) (topic : Text) (payload : P)
    (correlationId : Text) (state : S) : Delivered H P S :=
  deliver call ⟨topic, payload, correlationId⟩ (resolveHandlers (bus state) topic) state

end Delivery

section Subscriptions

variable [DecidableEq H]

/-- A change of the subscriptions. -/
inductive Change (H : Type) where
  | subscribe (topic : Text) (handler : H)
  | unsubscribe (topic : Text) (handler : H)

/-- The topic of a change. -/
def Change.topic : Change H → Text
  | .subscribe topic _ => topic
  | .unsubscribe topic _ => topic

/-- The bus behind a change. -/
def Bus.change (bus : Bus H) : Change H → Bus H
  | .subscribe topic handler => bus.subscribe topic handler
  | .unsubscribe topic handler => bus.unsubscribe topic handler

/-- The bus behind some changes of an empty one. -/
def Bus.after (changes : List (Change H)) : Bus H := changes.foldl Bus.change []

/-- The subscriptions behind a change, in the order in which they were made. -/
def resubscribed (subscriptions : List (Text × H)) : Change H → List (Text × H)
  | .subscribe topic handler => subscriptions ++ [(topic, handler)]
  | .unsubscribe topic handler => subscriptions.erase (topic, handler)

/-- The subscriptions that are left of some changes. -/
def live (changes : List (Change H)) : List (Text × H) := changes.foldl resubscribed []

/-- The topics behind a further one, in the order of their first use. -/
def used (topics : List Text) (change : Change H) : List Text :=
  if change.topic ∈ topics then topics else topics ++ [change.topic]

/-- The topics of some changes, in the order of their first use. -/
def firstUses (changes : List (Change H)) : List Text := changes.foldl used []

/-- The handlers subscribed to a topic. -/
def subscribedTo (topic : Text) (subscriptions : List (Text × H)) : List H :=
  (subscriptions.filter fun subscription => subscription.1 = topic).map Prod.snd

omit [DecidableEq H] in
theorem lookup_topic (bus : Bus H) (topic : Text) :
    bus.lookup topic = @List.lookup Text (List H) instBEqOfDecidableEq topic bus := by
  rw [lawful_beq_subsingleton (instBEqOfDecidableEq : BEq Text) List.instBEq]

theorem handlers_insert (bus : Bus H) (topic : Text) (targets : List H) (other : Text) :
    Bus.handlers (insert topic targets bus) other =
      if other = topic then targets else bus.handlers other := by
  unfold Bus.handlers
  rw [lookup_topic, lookup_topic, lookup_insert]
  split_ifs <;> rfl

omit [DecidableEq H] in
theorem subscribedTo_append (topic other : Text) (handler : H)
    (subscriptions : List (Text × H)) :
    subscribedTo other (subscriptions ++ [(topic, handler)]) =
      if other = topic then subscribedTo topic subscriptions ++ [handler]
      else subscribedTo other subscriptions := by
  unfold subscribedTo
  rw [List.filter_append, List.map_append]
  by_cases hother : other = topic
  · rw [if_pos hother, hother]
    simp
  · rw [if_neg hother]
    simp [Ne.symm hother]

theorem subscribedTo_erase (topic other : Text) (handler : H)
    (subscriptions : List (Text × H)) :
    subscribedTo other (subscriptions.erase (topic, handler)) =
      if other = topic then (subscribedTo topic subscriptions).erase handler
      else subscribedTo other subscriptions := by
  unfold subscribedTo
  induction subscriptions with
  | nil => split_ifs <;> rfl
  | cons first rest ih =>
    obtain ⟨name, target⟩ := first
    by_cases hsame : (name, target) = (topic, handler)
    · obtain ⟨rfl, rfl⟩ := Prod.mk.inj hsame
      rw [List.erase_cons_head]
      by_cases hother : other = name
      · rw [if_pos hother, hother]
        simp
      · rw [if_neg hother]
        simp [Ne.symm hother]
    · rw [List.erase_cons_tail (by simpa using hsame)]
      by_cases hother : other = topic
      · subst hother
        rw [if_pos rfl] at ih ⊢
        by_cases hname : name = other
        · have htarget : target ≠ handler := fun htarget => hsame (by rw [hname, htarget])
          simp only [List.filter_cons, hname, decide_true, if_true, List.map_cons]
          rw [ih, List.erase_cons_tail (by simpa using htarget)]
        · simp only [List.filter_cons, hname, decide_false, Bool.false_eq_true, if_false]
          exact ih
      · rw [if_neg hother] at ih ⊢
        by_cases hname : name = other
        · simp only [List.filter_cons, hname, decide_true, if_true, List.map_cons, ih]
        · simp only [List.filter_cons, hname, decide_false, Bool.false_eq_true, if_false, ih]

/-- The bus holds these subscriptions under topics in this order. -/
structure Holds (bus : Bus H) (subscriptions : List (Text × H)) (topics : List Text) : Prop where
  keys : bus.map Prod.fst = topics
  nodup : topics.Nodup
  groups : ∀ topic, bus.handlers topic = subscribedTo topic subscriptions
  topics : ∀ subscription ∈ subscriptions, subscription.1 ∈ topics

omit [DecidableEq H] in
theorem keys_insert_used (bus : Bus H) (change : Change H) (targets : List H) :
    (insert change.topic targets bus).map Prod.fst = used (bus.map Prod.fst) change := by
  unfold used
  split_ifs with hmem
  · exact keys_insert targets hmem
  · rw [insert_new targets hmem, List.map_append]
    rfl

theorem Holds.change {bus : Bus H} {subscriptions : List (Text × H)} {topics : List Text}
    (h : Holds bus subscriptions topics) (change : Change H) :
    Holds (bus.change change) (resubscribed subscriptions change) (used topics change) := by
  have hused : ∀ topic ∈ topics, topic ∈ used topics change := by
    intro topic hmem
    unfold used
    split_ifs
    · exact hmem
    · exact List.mem_append_left _ hmem
  have hnow : change.topic ∈ used topics change := by
    unfold used
    split_ifs with hmem
    · exact hmem
    · exact List.mem_append_right _ List.mem_cons_self
  have hkeys : ∀ targets, (insert change.topic targets bus).map Prod.fst = used topics change := by
    intro targets
    rw [keys_insert_used, h.keys]
  have hnodup : (used topics change).Nodup := by
    rw [← hkeys []]
    exact nodup_insert [] (h.keys ▸ h.nodup)
  cases change with
  | subscribe topic handler =>
    refine ⟨hkeys _, hnodup, fun other => ?_, fun subscription hmem => ?_⟩
    · exact (handlers_insert bus topic _ other).trans
        ((subscribedTo_append topic other handler subscriptions).trans
          (by rw [← h.groups, ← h.groups])).symm
    · rcases List.mem_append.mp hmem with hmem | hmem
      · exact hused _ (h.topics subscription hmem)
      · rw [List.mem_singleton.mp hmem]
        exact hnow
  | unsubscribe topic handler =>
    refine ⟨hkeys _, hnodup, fun other => ?_, fun subscription hmem => ?_⟩
    · exact (handlers_insert bus topic _ other).trans
        ((subscribedTo_erase topic other handler subscriptions).trans
          (by rw [← h.groups, ← h.groups])).symm
    · exact hused _ (h.topics subscription (List.mem_of_mem_erase hmem))

/-- Behind any changes the bus holds the subscriptions that are left. -/
theorem holds_after (changes : List (Change H)) :
    Holds (Bus.after changes) (live changes) (firstUses changes) := by
  have hrun : ∀ (more : List (Change H)) (bus : Bus H) (subscriptions topics),
      Holds bus subscriptions topics →
        Holds (more.foldl Bus.change bus) (more.foldl resubscribed subscriptions)
          (more.foldl used topics) := by
    intro more
    induction more with
    | nil => exact fun _ _ _ h => h
    | cons change rest ih => exact fun _ _ _ h => ih _ _ _ (h.change change)
  exact hrun changes [] [] [] ⟨rfl, List.nodup_nil, fun _ => rfl,
    fun _ hmem => absurd hmem List.not_mem_nil⟩

omit [DecidableEq H] in
/-- Groups by topic make up the subscriptions with one of the topics. -/
theorem perm_groups {topics : List Text} (hnodup : topics.Nodup) (subscriptions : List (Text × H)) :
    (topics.flatMap fun topic => subscriptions.filter fun s => s.1 = topic).Perm
      (subscriptions.filter fun s => s.1 ∈ topics) := by
  induction topics with
  | nil => simp
  | cons topic topics ih =>
    obtain ⟨hnew, hnodup⟩ := List.nodup_cons.mp hnodup
    have hsplit := List.filter_append_perm (fun s : Text × H => decide (s.1 = topic))
      (subscriptions.filter fun s => s.1 ∈ topic :: topics)
    have hfirst : (subscriptions.filter fun s => s.1 ∈ topic :: topics).filter
        (fun s => decide (s.1 = topic)) = subscriptions.filter fun s => s.1 = topic := by
      rw [List.filter_filter]
      refine List.filter_congr fun s _ => ?_
      by_cases hs : s.1 = topic <;> simp [hs]
    have hothers : (subscriptions.filter fun s => s.1 ∈ topic :: topics).filter
        (fun s => !decide (s.1 = topic)) = subscriptions.filter fun s => s.1 ∈ topics := by
      rw [List.filter_filter]
      refine List.filter_congr fun s _ => ?_
      by_cases hs : s.1 = topic
      · simp [hs, hnew]
      · simp [hs]
    rw [hfirst, hothers] at hsplit
    rw [List.flatMap_cons]
    exact ((ih hnodup).append_left _).trans hsplit

/-- Without a topic all subscriptions are counted. -/
theorem subscriberCount_all (changes : List (Change H)) :
    (Bus.after changes).subscriberCount none = (live changes).length := by
  have h := holds_after changes
  have hperm := perm_groups h.nodup (live changes)
  rw [List.filter_eq_self.mpr fun s hs => decide_eq_true (h.topics s hs)] at hperm
  have hentry : ∀ entry ∈ Bus.after changes, entry.2.length =
      ((live changes).filter fun s => s.1 = entry.1).length := by
    intro entry hmem
    have hgroup := h.groups entry.1
    unfold Bus.handlers at hgroup
    rw [lookup_topic, lookup_of_mem (h.keys ▸ h.nodup) hmem, Option.getD_some] at hgroup
    rw [hgroup, subscribedTo, List.length_map]
  unfold Bus.subscriberCount
  rw [← hperm.length_eq, ← h.keys, List.flatMap_map, List.length_flatMap]
  exact congrArg List.sum (List.map_congr_left hentry)

end Subscriptions

end AiosDeck.Events
