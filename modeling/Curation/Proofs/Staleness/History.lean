import Mathlib.Data.List.DropRight
import Mathlib.Data.List.Induction
import Curation.Proofs.Staleness.Persistence

/-!
# Histories of trackers

What a tracker knows is told by what callers did and were answered, from the tracker that knows no
id. For each id, the last restoration or reset settles what is known of it; evaluations and
invalidations count from then on.

* `TrackerEvent`: a call of a tracker and its answer.
* `History.known`, `History.isPresent`: what a history tells of an id, and whether it is known.
* `Tracker.Follows`: a tracker knows what a history tells, an invariant of all calls.
* `Tracker.known_by_history`: what it answers after any calls.
-/

namespace Curation

/-- What callers can do with a tracker: a step, or a question about it. -/
inductive TrackerCall where
  | step (step : TrackerStep)
  | state (id : String)
  | shouldReevaluate (id : String) (validNanos : Int) (now : Instant)
  | snapshot

/-- The step of a call that is no question. -/
def TrackerCall.step? : TrackerCall → Option TrackerStep
  | step made => some made
  | state _ | shouldReevaluate _ _ _ | snapshot => none

/-- The answer of a tracker. -/
inductive TrackerAnswer where
  | done
  -- whether a refresh evaluated the result
  | refreshed (isEvaluated : Bool)
  | state (state : StalenessState)
  | stale (isStale : Bool)
  | snapshot (states : List (String × StalenessState))

/-- A call of a tracker and its answer. -/
structure TrackerEvent where
  call : TrackerCall
  answer : TrackerAnswer

/-- Events in order, the first one first. -/
abbrev History := List TrackerEvent

namespace Tracker

/-- The answer to a call. -/
def answer (tracker : Tracker) : TrackerCall → TrackerAnswer
  | .step (.refresh id validNanos now) => .refreshed (tracker.refresh id validNanos now).1
  | .step _ => .done
  | .state id => .state (tracker.state id)
  | .shouldReevaluate id validNanos now => .stale (tracker.shouldReevaluate id validNanos now)
  | .snapshot => .snapshot tracker.snapshot

/-- The tracker after a call. -/
def after (tracker : Tracker) : TrackerCall → Tracker
  | .step step => tracker.step step
  | .state _ | .shouldReevaluate _ _ _ | .snapshot => tracker

/-- The tracker after several calls. -/
def afterAll (tracker : Tracker) (calls : List TrackerCall) : Tracker := calls.foldl after tracker

/-- Several calls and their answers, in order. -/
def events (tracker : Tracker) : List TrackerCall → History
  | [] => []
  | call :: calls => ⟨call, tracker.answer call⟩ :: (tracker.after call).events calls

/-- One more call adds one event, with the answer after the calls before. -/
theorem events_append_singleton (tracker : Tracker) (calls : List TrackerCall)
    (call : TrackerCall) : tracker.events (calls ++ [call]) =
      tracker.events calls ++ [⟨call, (tracker.afterAll calls).answer call⟩] := by
  induction calls generalizing tracker with
  | nil => rfl
  | cons first calls ih =>
    rw [List.cons_append, events, ih, events, List.cons_append]
    rfl

end Tracker

namespace TrackerEvent

/-- Whether an event settles what is known of an id, whatever was known before. -/
def settles (id : String) (event : TrackerEvent) : Bool :=
  match event.call with
  | .step (.reset other) => other = id
  | .step (.restore _) => true
  | _ => false

/-- The state that an event restores for an id. -/
def restored? (id : String) (event : TrackerEvent) : Option StalenessState :=
  match event.call with
  | .step (.restore states) => (Tracker.restore states).states[id]?
  | _ => none

/-- Whether an event makes an id known. -/
def touches (id : String) (event : TrackerEvent) : Bool :=
  match event.call with
  | .step (.invalidate other _) | .step (.markEvaluated other _) | .step (.refresh other _ _) =>
    other = id
  | _ => false

/-- When an event evaluates the result of an id: a refresh does if it says so. -/
def evaluation? (id : String) (event : TrackerEvent) : Option Instant :=
  match event.call, event.answer with
  | .step (.markEvaluated other t), _ => if other = id then some t else none
  | .step (.refresh other _ now), .refreshed true => if other = id then some now else none
  | _, _ => none

/-- As of when an event invalidates the result of an id, by name or, if it is known, with all
others. -/
def invalidation? (id : String) (isPresent : Bool) (event : TrackerEvent) : Option Instant :=
  match event.call with
  | .step (.invalidate other t) => if other = id then some t else none
  | .step (.invalidateAll t) => if isPresent then some t else none
  | _ => none

/-- The state of an id after an event that does not settle it. -/
def on (id : String) (isPresent : Bool) (event : TrackerEvent) (state : StalenessState) :
    StalenessState where
  lastEvaluated := (event.evaluation? id).or state.lastEvaluated
  invalidatedSince :=
    ((event.invalidation? id isPresent).elim state state.invalidate).invalidatedSince

end TrackerEvent

namespace History

/-- Each event with those before it, after some that are past. -/
def withPast (past : History) : History → List (History × TrackerEvent)
  | [] => []
  | event :: events => (past, event) :: withPast (past ++ [event]) events

/-- The events since the last one that settles what is known of an id, each with those before
it. -/
def since (id : String) (history : History) : List (History × TrackerEvent) :=
  (withPast [] history).rtakeWhile fun entry => !entry.2.settles id

/-- The state that was last restored for an id, unless the id was reset since. -/
def restored? (id : String) (history : History) : Option StalenessState :=
  (history.filter (·.settles id)).getLast?.bind (·.restored? id)

/-- Whether an id is known: it was restored, or touched since it was settled. -/
def isPresent (id : String) (history : History) : Bool :=
  (restored? id history).isSome || (since id history).any (·.2.touches id)

/-- The evaluations of an id since it was settled. -/
def evaluations (id : String) (history : History) : List Instant :=
  (since id history).filterMap (·.2.evaluation? id)

/-- The invalidations of an id since it was settled; one of all ids counts if the id was known by
then. -/
def invalidations (id : String) (history : History) : List Instant :=
  (since id history).filterMap fun (past, event) => event.invalidation? id (isPresent id past)

/-- What a history tells of an id: when it was evaluated last, and the latest instant as of which it
was invalidated, beginning with the state that was restored. -/
def known (id : String) (history : History) : StalenessState :=
  let base := (restored? id history).getD {}
  { lastEvaluated := (evaluations id history).getLast?.or base.lastEvaluated
    invalidatedSince := (base.invalidatedSince.toList ++ invalidations id history).max? }

variable {id : String} {history : History} {event : TrackerEvent}

/-- One more event is put with all that came before it. -/
theorem withPast_append_singleton (past history : History) (event : TrackerEvent) :
    withPast past (history ++ [event]) = withPast past history ++ [(past ++ history, event)] := by
  induction history generalizing past with
  | nil => simp [withPast]
  | cons first history ih => simp [withPast, ih]

/-- No events follow one that settles an id. -/
theorem since_append_of_settles (h : event.settles id) : since id (history ++ [event]) = [] := by
  rw [since, withPast_append_singleton, List.rtakeWhile_concat, if_neg (by simp [h])]

/-- An event that settles nothing follows those since an id was settled. -/
theorem since_append_of_not_settles (h : event.settles id = false) :
    since id (history ++ [event]) = since id history ++ [(history, event)] := by
  rw [since, withPast_append_singleton, List.rtakeWhile_concat, if_pos (by simp [h])]
  rfl

/-- An event that settles an id has the say on the state that is restored. -/
theorem restored?_append_of_settles (h : event.settles id) :
    restored? id (history ++ [event]) = event.restored? id := by
  simp [restored?, h]

/-- An event that settles nothing keeps the state that was restored. -/
theorem restored?_append_of_not_settles (h : event.settles id = false) :
    restored? id (history ++ [event]) = restored? id history := by
  simp [restored?, h]

/-- After an event that settles an id, the id is known only if it is restored. -/
theorem isPresent_append_of_settles (h : event.settles id) :
    isPresent id (history ++ [event]) = (event.restored? id).isSome := by
  simp [isPresent, restored?_append_of_settles h, since_append_of_settles h]

/-- After an event that settles nothing, the id is known if it was before or is touched. -/
theorem isPresent_append_of_not_settles (h : event.settles id = false) :
    isPresent id (history ++ [event]) = (isPresent id history || event.touches id) := by
  simp [isPresent, restored?_append_of_not_settles h, since_append_of_not_settles h,
    Bool.or_assoc]

/-- An event that settles what is known of an id leaves nothing of the events before. -/
theorem known_append_of_settles (h : event.settles id) :
    known id (history ++ [event]) = (event.restored? id).getD {} := by
  simp only [known, evaluations, invalidations, since_append_of_settles h,
    restored?_append_of_settles h]
  cases hbase : (event.restored? id).getD {} with
  | mk last since => cases since <;> rfl

/-- One more instant is the latest one if none of the others is later. -/
theorem max?_append_singleton (instants : List Instant) (t : Instant) :
    (instants ++ [t]).max? = some (instants.max?.elim t (max · t)) := by
  cases instants <;> simp [List.max?]

/-- Any other event adds its own evaluation and its own invalidation. -/
theorem known_append_of_not_settles (h : event.settles id = false) :
    known id (history ++ [event]) = event.on id (isPresent id history) (known id history) := by
  simp only [known, evaluations, invalidations, since_append_of_not_settles h,
    restored?_append_of_not_settles h, List.filterMap_append, List.filterMap_cons,
    List.filterMap_nil, TrackerEvent.on]
  -- the two fields of the state, when it was evaluated and since when it is invalidated
  congr 1
  · cases event.evaluation? id <;> simp
  · cases event.invalidation? id (isPresent id history) with
    | none => simp
    | some t =>
      simp only [← List.append_assoc, max?_append_singleton, Option.elim_some,
        StalenessState.invalidate]
      split <;> simp [*]

end History

namespace Tracker

/-- A tracker knows what a history tells. -/
structure Follows (tracker : Tracker) (history : History) : Prop where
  state (id : String) : tracker.state id = history.known id
  isPresent (id : String) : tracker.states[id]?.isSome = history.isPresent id

theorem getElem?_empty (id : String) : empty.states[id]? = none := by simp [empty]

/-- An empty tracker follows the empty history. -/
theorem follows_empty : empty.Follows [] where
  state id := by
    rw [Tracker.state, getElem?_empty]
    rfl
  isPresent id := by
    rw [getElem?_empty]
    rfl

variable {tracker : Tracker} {call : TrackerCall} {id : String}

/-- After a call that settles an id, the tracker has the state that is restored. -/
theorem getElem?_after_of_settles {answer : TrackerAnswer}
    (h : TrackerEvent.settles id ⟨call, answer⟩) :
    (tracker.after call).states[id]? = TrackerEvent.restored? id ⟨call, answer⟩ := by
  cases call with
  | step step =>
    rw [after, getElem?_step]
    cases step with
    | reset other => exact if_pos (of_decide_eq_true h)
    | restore states => rfl
    | invalidate | invalidateAll | markEvaluated | refresh => cases h
  | state | shouldReevaluate | snapshot => cases h

/-- After a call that settles nothing, the tracker has an id if it had it before or the call touches
it. -/
theorem isSome_after_of_not_settles {answer : TrackerAnswer}
    (h : TrackerEvent.settles id ⟨call, answer⟩ = false) :
    (tracker.after call).states[id]?.isSome =
      (tracker.states[id]?.isSome || TrackerEvent.touches id ⟨call, answer⟩) := by
  cases call with
  | step step =>
    rw [after, getElem?_step]
    cases step with
    | invalidate other t | markEvaluated other t =>
      by_cases hid : other = id <;> simp [TrackerStep.on, TrackerEvent.touches, hid]
    | refresh other validNanos now =>
      by_cases hid : other = id <;>
        simp [TrackerStep.on, TrackerEvent.touches, hid, ← apply_ite some]
    -- invalidating all ids makes none known
    | invalidateAll t => simp [TrackerStep.on, TrackerEvent.touches]
    | reset other => simp [TrackerStep.on, TrackerEvent.touches, of_decide_eq_false h]
    | restore states => cases h
  | state | shouldReevaluate | snapshot => simp [after, TrackerEvent.touches]

/-- A call that does not settle an id acts on its state as the event of the call says. -/
theorem state_after_of_not_settles
    (h : TrackerEvent.settles id ⟨call, tracker.answer call⟩ = false) :
    (tracker.after call).state id = TrackerEvent.on id tracker.states[id]?.isSome
      ⟨call, tracker.answer call⟩ (tracker.state id) := by
  cases call with
  | step step =>
    rw [after, Tracker.state, getElem?_step]
    cases step with
    | invalidate other t | markEvaluated other t =>
      by_cases hid : other = id <;>
        simp [TrackerStep.on, TrackerEvent.on, TrackerEvent.evaluation?,
          TrackerEvent.invalidation?, hid, StalenessState.invalidate, StalenessState.evaluated,
          Tracker.state]
    | refresh other validNanos now =>
      by_cases hid : other = id
      · subst hid
        -- whether the refresh evaluated is what it answered
        cases hstale : (tracker.state other).isStale validNanos now with
        | true =>
          rw [answer, refresh_of_isStale hstale]
          rw [Tracker.state] at hstale ⊢
          simp [TrackerStep.on, hstale, TrackerEvent.on, TrackerEvent.evaluation?,
            TrackerEvent.invalidation?, StalenessState.evaluated]
        | false =>
          rw [answer, refresh_of_not_isStale hstale]
          rw [Tracker.state] at hstale ⊢
          simp [TrackerStep.on, hstale, TrackerEvent.on, TrackerEvent.evaluation?,
            TrackerEvent.invalidation?]
      · -- a refresh of another id does not count, whatever it answered
        have hevaluation (answer : TrackerAnswer) :
            TrackerEvent.evaluation? id ⟨.step (.refresh other validNanos now), answer⟩ =
              none := by
          rw [TrackerEvent.evaluation?]
          split <;> simp_all
        simp [TrackerStep.on, TrackerEvent.on, hevaluation, TrackerEvent.invalidation?, hid,
          Tracker.state]
    | invalidateAll t =>
      cases hknown : tracker.states[id]? <;>
        simp [TrackerStep.on, TrackerEvent.on, TrackerEvent.evaluation?,
          TrackerEvent.invalidation?, hknown, StalenessState.invalidate, Tracker.state]
    | reset other =>
      simp [TrackerStep.on, TrackerEvent.on, TrackerEvent.evaluation?,
        TrackerEvent.invalidation?, of_decide_eq_false h, Tracker.state]
    | restore states => cases h
  | state | shouldReevaluate | snapshot => rfl

/-- Every call keeps to the history. -/
theorem Follows.after {history : History} (h : tracker.Follows history) (call : TrackerCall) :
    (tracker.after call).Follows (history ++ [⟨call, tracker.answer call⟩]) := by
  -- a call settles an id, or it adds to what is known of it
  let event : TrackerEvent := ⟨call, tracker.answer call⟩
  have hsettled {id : String} (hid : event.settles id) :
      (tracker.after call).states[id]? = event.restored? id := getElem?_after_of_settles hid
  refine ⟨fun id => ?_, fun id => ?_⟩
  · cases hid : event.settles id with
    | true => rw [History.known_append_of_settles hid, Tracker.state, hsettled hid]
    | false =>
      rw [History.known_append_of_not_settles hid, ← h.state, ← h.isPresent]
      exact state_after_of_not_settles hid
  · cases hid : event.settles id with
    | true => rw [History.isPresent_append_of_settles hid, hsettled hid]
    | false =>
      rw [History.isPresent_append_of_not_settles hid, ← h.isPresent]
      exact isSome_after_of_not_settles hid

/-- After any calls, a tracker knows what their history tells. -/
theorem follows_afterAll (calls : List TrackerCall) :
    (empty.afterAll calls).Follows (empty.events calls) := by
  induction calls using List.reverseRecOn with
  | nil => exact follows_empty
  | append_singleton calls call ih =>
    rw [events_append_singleton, afterAll, List.foldl_append]
    exact ih.after call

/-- Questions do not change what is known. -/
theorem afterAll_eq_run (calls : List TrackerCall) :
    empty.afterAll calls = run (calls.filterMap TrackerCall.step?) := by
  induction calls using List.reverseRecOn with
  | nil => rfl
  | append_singleton calls call ih =>
    have hlast : empty.afterAll (calls ++ [call]) = (empty.afterAll calls).after call :=
      List.foldl_append
    rw [hlast, ih, List.filterMap_append, run, run, List.foldl_append]
    cases call <;> rfl

/-- The ids told are told once each, in ascending order. -/
theorem pairwise_snapshot (tracker : Tracker) : tracker.snapshot.Pairwise (·.1 < ·.1) :=
  tracker.states.ordered_keys_toList.imp fun h => compareOfLessAndEq_eq_lt.mp h

/-- After any calls, their history tells what is known of every id, which ids are known, and whether
a result is evaluated by a refresh; questions do not change any of it. -/
theorem known_by_history (calls : List TrackerCall) :
    let tracker := empty.afterAll calls
    let history := empty.events calls
    (∀ id, tracker.state id = history.known id) ∧
      tracker.snapshot.Pairwise (·.1 < ·.1) ∧
      (∀ id state, (id, state) ∈ tracker.snapshot ↔
        history.isPresent id ∧ state = history.known id) ∧
      (∀ id validNanos now,
        tracker.shouldReevaluate id validNanos now = (history.known id).isStale validNanos now ∧
        (tracker.refresh id validNanos now).1 = (history.known id).isStale validNanos now) ∧
      tracker = run (calls.filterMap TrackerCall.step?) := by
  intro tracker history
  have hfollows : tracker.Follows history := follows_afterAll calls
  refine ⟨hfollows.state, tracker.pairwise_snapshot, fun id state => ?_,
    fun id validNanos now => ⟨?_, ?_⟩, afterAll_eq_run calls⟩
  -- an id is in the snapshot exactly if the tracker has a state of it
  · rw [mem_snapshot_iff, ← hfollows.isPresent, ← hfollows.state, Tracker.state]
    cases tracker.states[id]? <;> simp [eq_comm]
  · rw [shouldReevaluate, hfollows.state]
  · rw [← hfollows.state]
    cases hstale : (tracker.state id).isStale validNanos now with
    | true => rw [refresh_of_isStale hstale]
    | false => rw [refresh_of_not_isStale hstale]

/-- An invalidation of all ids does not reach one that becomes known later. -/
example :
    (empty.afterAll [.step (.markEvaluated "inbox" ⟨3, 0⟩), .step (.invalidateAll ⟨5, 0⟩),
      .step (.markEvaluated "news" ⟨4, 0⟩)]).snapshot =
        [("inbox", ⟨some ⟨3, 0⟩, some ⟨5, 0⟩⟩), ("news", ⟨some ⟨4, 0⟩, none⟩)] := by
  decide +kernel

end Tracker

end Curation
