import Mathlib.Data.List.Basic

/-!
Contract: labelled transition systems with a partial step function, and the
rules that carry a property along their runs.

Owns:
- systems, recorded runs, visited states and reachability;
- the invariant rule and its guarded form, in which only admitted steps have to
  preserve the invariant;
- the equivalence of "every visited state is good" with "every step taken was
  admitted", for a guard whose violation breaks the property at once;
- splitting a run at one of its transitions.

Does not own: any concrete state, event, or step function.
-/

set_option autoImplicit false

namespace Fs0.Lib

universe u v

/-- A system: its initial states, and the state each admitted event leads to. -/
structure System (σ : Type u) (ε : Type v) where
  Init : σ → Prop
  step : σ → ε → Option σ

/-- One recorded step. -/
structure Transition (σ : Type u) (ε : Type v) where
  pre : σ
  event : ε
  post : σ

variable {σ : Type u} {ε : Type v}

/-- A run from an initial state, newest transition first, and the state it ends in. -/
inductive System.Run (sys : System σ ε) : List (Transition σ ε) → σ → Prop where
  | init {s : σ} (initial : sys.Init s) : sys.Run [] s
  | step {ts : List (Transition σ ε)} {s s' : σ} {e : ε}
      (run : sys.Run ts s) (taken : sys.step s e = some s') :
      sys.Run (⟨s, e, s'⟩ :: ts) s'

/-- Every state of a run: the one it ends in and the one before each transition. -/
def visited (ts : List (Transition σ ε)) (s : σ) : List σ :=
  s :: ts.map Transition.pre

def System.Reachable (sys : System σ ε) (s : σ) : Prop :=
  ∃ ts, sys.Run ts s

/-- Executes events in order; `none` as soon as one is not admitted. -/
def System.exec (sys : System σ ε) : σ → List ε → Option σ
  | s, [] => some s
  | s, e :: es => (sys.step s e).bind fun s' => sys.exec s' es

/-- Executes events in order, each one in a state that admits it. -/
def System.execWhile (sys : System σ ε) (admits : σ → ε → Bool) : σ → List ε → Option σ
  | s, [] => some s
  | s, e :: es =>
      if admits s e then (sys.step s e).bind fun s' => sys.execWhile admits s' es else none

namespace System

variable {sys : System σ ε}

theorem Reachable.init {s : σ} (initial : sys.Init s) : sys.Reachable s :=
  ⟨[], .init initial⟩

theorem Reachable.step {s s' : σ} {e : ε} (reachable : sys.Reachable s)
    (taken : sys.step s e = some s') : sys.Reachable s' := by
  obtain ⟨ts, run⟩ := reachable
  exact ⟨_, run.step taken⟩

theorem Run.reachable {ts : List (Transition σ ε)} {s : σ} (run : sys.Run ts s) :
    sys.Reachable s := ⟨ts, run⟩

/-- Executing events from the end of a run extends that run by their transitions. -/
theorem Run.exec (es : List ε) {ts : List (Transition σ ε)} {s s' : σ}
    (run : sys.Run ts s) (ends : sys.exec s es = some s') :
    ∃ ts', sys.Run (ts' ++ ts) s' ∧ ts'.reverse.map Transition.event = es := by
  induction es generalizing ts s with
  | nil =>
      obtain rfl := Option.some.inj ends
      exact ⟨[], run, rfl⟩
  | cons e es inductionHypothesis =>
      obtain ⟨next, taken, rest⟩ := Option.bind_eq_some_iff.mp ends
      obtain ⟨ts', extended, events⟩ := inductionHypothesis (run.step taken) rest
      refine ⟨ts' ++ [⟨s, e, next⟩], by simpa using extended, ?_⟩
      simp [events]

/-- Executing events that are admitted extends a run by admitted transitions. -/
theorem Run.execWhile {admits : σ → ε → Bool} (es : List ε) {ts : List (Transition σ ε)}
    {s s' : σ} (run : sys.Run ts s) (ends : sys.execWhile admits s es = some s') :
    ∃ ts', sys.Run (ts' ++ ts) s' ∧ ∀ t ∈ ts', admits t.pre t.event := by
  induction es generalizing ts s with
  | nil =>
      obtain rfl := Option.some.inj ends
      exact ⟨[], run, nofun⟩
  | cons e es inductionHypothesis =>
      unfold System.execWhile at ends
      split at ends
      next admitted =>
        obtain ⟨next, taken, rest⟩ := Option.bind_eq_some_iff.mp ends
        obtain ⟨ts', extended, others⟩ := inductionHypothesis (run.step taken) rest
        refine ⟨ts' ++ [⟨s, e, next⟩], by simpa using extended, ?_⟩
        intro t member
        rcases List.mem_append.mp member with member | last
        · exact others t member
        · rw [List.mem_singleton.mp last]
          exact admitted
      · cases ends

/-- Executing events from an initial state ends in a reachable state. -/
theorem exec_reachable (es : List ε) {s s' : σ} (initial : sys.Init s)
    (ends : sys.exec s es = some s') : sys.Reachable s' := by
  obtain ⟨ts, run, -⟩ := (Run.init initial).exec es ends
  exact ⟨_, run⟩

/-- Invariant rule: what holds initially and is preserved by each step of a
reachable state holds at the end of every run. -/
theorem Run.invariant (Inv : σ → Prop) {ts : List (Transition σ ε)} {s : σ}
    (run : sys.Run ts s) (initial : ∀ s, sys.Init s → Inv s)
    (preserved : ∀ s e s', Inv s → sys.step s e = some s' → Inv s') : Inv s := by
  induction run with
  | init start => exact initial _ start
  | step _ taken inductionHypothesis => exact preserved _ _ _ inductionHypothesis taken

theorem Reachable.invariant (Inv : σ → Prop) {s : σ} (reachable : sys.Reachable s)
    (initial : ∀ s, sys.Init s → Inv s)
    (preserved : ∀ s e s', Inv s → sys.step s e = some s' → Inv s') : Inv s := by
  obtain ⟨ts, run⟩ := reachable
  exact run.invariant Inv initial preserved

/-- Guarded invariant rule: in a run all of whose steps are admitted by the
guard, the invariant holds in every state visited. -/
theorem Run.invariant_of_guard (Inv : σ → Prop) (Guard : σ → ε → Prop)
    {ts : List (Transition σ ε)} {s : σ} (run : sys.Run ts s)
    (initial : ∀ s, sys.Init s → Inv s)
    (preserved : ∀ s e s', Inv s → Guard s e → sys.step s e = some s' → Inv s')
    (admitted : ∀ t ∈ ts, Guard t.pre t.event) : ∀ x ∈ visited ts s, Inv x := by
  induction run with
  | init start => simpa [visited] using initial _ start
  | @step ts s s' e run taken inductionHypothesis =>
      have earlier := inductionHypothesis fun t member => admitted t (List.mem_cons_of_mem _ member)
      have here : Guard s e := admitted ⟨s, e, s'⟩ List.mem_cons_self
      intro x member
      rcases List.mem_cons.mp member with rfl | member
      · exact preserved _ _ _ (earlier s List.mem_cons_self) here taken
      · exact earlier x member

/-- If a step outside the guard breaks the property in the state it leads to,
then the property holds throughout a run exactly when every step is admitted. -/
theorem Run.all_visited_iff_guard (Inv Good : σ → Prop) (Guard : σ → ε → Prop)
    {ts : List (Transition σ ε)} {s : σ} (run : sys.Run ts s)
    (initial : ∀ s, sys.Init s → Inv s)
    (preserved : ∀ s e s', Inv s → Guard s e → sys.step s e = some s' → Inv s')
    (good : ∀ s, Inv s → Good s)
    (broken : ∀ s e s', Inv s → ¬ Guard s e → sys.step s e = some s' → ¬ Good s') :
    (∀ x ∈ visited ts s, Good x) ↔ ∀ t ∈ ts, Guard t.pre t.event := by
  constructor
  · intro allGood
    induction run with
    | init => simp
    | @step ts s s' e run taken inductionHypothesis =>
        have earlier := inductionHypothesis fun x member => allGood x (List.mem_cons_of_mem _ member)
        have inv : Inv s :=
          run.invariant_of_guard Inv Guard initial preserved earlier s List.mem_cons_self
        have here : Guard s e := by
          by_contra outside
          exact broken s e s' inv outside taken (allGood s' List.mem_cons_self)
        intro t member
        rcases List.mem_cons.mp member with rfl | member
        · exact here
        · exact earlier t member
  · intro admitted x member
    exact good x (run.invariant_of_guard Inv Guard initial preserved admitted x member)

/-- The run that led to one of its transitions. -/
theorem Run.before {later earlier : List (Transition σ ε)} {t : Transition σ ε} {s : σ}
    (run : sys.Run (later ++ t :: earlier) s) :
    sys.Run earlier t.pre ∧ sys.step t.pre t.event = some t.post := by
  induction later generalizing s with
  | nil =>
      cases run with
      | step run taken => exact ⟨run, taken⟩
  | cons _ _ inductionHypothesis =>
      cases run with
      | step run _ => exact inductionHypothesis run

/-- Every transition of a run is a step of a reachable state. -/
theorem Run.of_mem {ts : List (Transition σ ε)} {t : Transition σ ε} {s : σ} (run : sys.Run ts s)
    (member : t ∈ ts) : sys.Reachable t.pre ∧ sys.step t.pre t.event = some t.post := by
  obtain ⟨later, earlier, rfl⟩ := List.append_of_mem member
  obtain ⟨before, taken⟩ := run.before
  exact ⟨before.reachable, taken⟩

theorem Run.reachable_of_visited {ts : List (Transition σ ε)} {s x : σ} (run : sys.Run ts s)
    (member : x ∈ visited ts s) : sys.Reachable x := by
  rcases List.mem_cons.mp member with rfl | earlier
  · exact run.reachable
  · obtain ⟨t, among, rfl⟩ := List.mem_map.mp earlier
    exact (run.of_mem among).1

/-- What holds after one transition and is preserved by the steps of reachable
states from there on still holds at the end of the run. -/
theorem Run.since (P : σ → Prop) {later earlier : List (Transition σ ε)} {t : Transition σ ε}
    {s : σ} (run : sys.Run (later ++ t :: earlier) s) (start : P t.post)
    (preserved : ∀ x ∈ later, sys.Reachable x.pre → P x.pre →
      sys.step x.pre x.event = some x.post → P x.post) : P s := by
  induction later generalizing s with
  | nil =>
      cases run with
      | step _ _ => exact start
  | cons head tail inductionHypothesis =>
      cases run with
      | step run taken =>
          have earlier := inductionHypothesis run fun x member =>
            preserved x (List.mem_cons_of_mem _ member)
          exact preserved _ List.mem_cons_self run.reachable earlier taken

end System

end Fs0.Lib
