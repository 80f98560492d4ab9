import Fs0.Lib.Transition

/-!
Contract: refinement of a system by labelled steps, with stuttering.

Owns:
- relations under which every admitted step of a system is the step of a specification that
  its label names, or none when it names none;
- the run of the specification that goes alongside a run of the system, step by step.

Does not own: the systems that are related.
-/

set_option autoImplicit false

namespace Fs0.Lib

universe u v

variable {σ τ : Type u} {ε δ : Type v}

/-- Two runs side by side, related in all of their states: the steps of the second are exactly
those that the labels of the first name. -/
inductive Alongside (label : σ → ε → Option δ) (R : σ → τ → Prop) :
    List (Transition σ ε) → σ → List (Transition τ δ) → τ → Prop where
  | init {s : σ} {t : τ} (related : R s t) : Alongside label R [] s [] t
  | silent {ts : List (Transition σ ε)} {us : List (Transition τ δ)} {s s' : σ} {t : τ} {e : ε}
      (runs : Alongside label R ts s us t) (unnamed : label s e = none) (related : R s' t) :
      Alongside label R (⟨s, e, s'⟩ :: ts) s' us t
  | named {ts : List (Transition σ ε)} {us : List (Transition τ δ)} {s s' : σ} {t t' : τ} {e : ε}
      {d : δ} (runs : Alongside label R ts s us t) (named : label s e = some d)
      (related : R s' t') : Alongside label R (⟨s, e, s'⟩ :: ts) s' (⟨t, d, t'⟩ :: us) t'

/-- Every admitted step of a system, from related states, is the step of the specification
that its label names, or none when it names none. -/
structure Refinement (sys : System σ ε) (spec : System τ δ) (Guard : σ → ε → Prop)
    (label : σ → ε → Option δ) (R : σ → τ → Prop) : Prop where
  init : ∀ s, sys.Init s → ∃ t, spec.Init t ∧ R s t
  step : ∀ s t e s', R s t → Guard s e → sys.step s e = some s' →
    ∃ t', R s' t' ∧
      (label s e = none ∧ t' = t ∨ ∃ d, label s e = some d ∧ spec.step t d = some t')

section Alongside

variable {label : σ → ε → Option δ} {R : σ → τ → Prop} {ts : List (Transition σ ε)}
  {us : List (Transition τ δ)} {s : σ} {t : τ}

theorem Alongside.related (runs : Alongside label R ts s us t) : R s t := by
  cases runs with
  | init related => exact related
  | silent _ _ related => exact related
  | named _ _ related => exact related

theorem Alongside.mono {R' : σ → τ → Prop} (runs : Alongside label R ts s us t)
    (weaker : ∀ s t, R s t → R' s t) : Alongside label R' ts s us t := by
  induction runs with
  | init related => exact .init (weaker _ _ related)
  | silent _ unnamed related inductionHypothesis =>
      exact .silent inductionHypothesis unnamed (weaker _ _ related)
  | named _ named related inductionHypothesis =>
      exact .named inductionHypothesis named (weaker _ _ related)

/-- The steps of the second run are those that the labels of the first name. -/
theorem Alongside.events (runs : Alongside label R ts s us t) :
    us.map Transition.event = ts.filterMap fun t => label t.pre t.event := by
  induction runs with
  | init related => rfl
  | silent runs unnamed related inductionHypothesis =>
      simp only [inductionHypothesis, List.filterMap_cons, unnamed]
  | named runs named related inductionHypothesis =>
      simp only [List.map_cons, inductionHypothesis, List.filterMap_cons, named]

end Alongside

variable {sys : System σ ε} {spec : System τ δ} {Guard : σ → ε → Prop}
  {label : σ → ε → Option δ} {R : σ → τ → Prop}

/-- What holds of the specification after one step of the system, and is kept by its own steps,
still holds at the end. -/
theorem Alongside.since {P : τ → Prop} (preserved : ∀ t d t', P t → spec.step t d = some t' → P t')
    {later earlier : List (Transition σ ε)} {u : Transition σ ε} {s : σ}
    {us : List (Transition τ δ)} {t : τ} (specRun : spec.Run us t)
    (runs : Alongside label R (later ++ u :: earlier) s us t) (start : ∀ y, R u.post y → P y) :
    P t := by
  induction later generalizing s us t with
  | nil =>
      have related := runs.related
      cases runs with
      | silent _ _ _ => exact start t related
      | named _ _ _ => exact start t related
  | cons head later inductionHypothesis =>
      cases runs with
      | silent runs _ _ => exact inductionHypothesis specRun runs
      | named runs _ _ =>
          cases specRun with
          | step specRun matched => exact preserved _ _ _ (inductionHypothesis specRun runs) matched

/-- A run of the system goes alongside a run of the specification. -/
theorem Refinement.run (refinement : Refinement sys spec Guard label R)
    {ts : List (Transition σ ε)} {s : σ} (run : sys.Run ts s)
    (admitted : ∀ t ∈ ts, Guard t.pre t.event) :
    ∃ us t, spec.Run us t ∧ Alongside label R ts s us t := by
  induction run with
  | init initial =>
      obtain ⟨t, isInit, related⟩ := refinement.init _ initial
      exact ⟨[], t, .init isInit, .init related⟩
  | @step ts s s' e run taken inductionHypothesis =>
      obtain ⟨us, t, specRun, runs⟩ :=
        inductionHypothesis fun t member => admitted t (List.mem_cons_of_mem _ member)
      obtain ⟨t', related', ⟨unnamed, same⟩ | ⟨d, named, matched⟩⟩ :=
        refinement.step s t e s' runs.related (admitted _ List.mem_cons_self) taken
      · subst same
        exact ⟨us, t', specRun, runs.silent unnamed related'⟩
      · exact ⟨⟨t, d, t'⟩ :: us, t', specRun.step matched, runs.named named related'⟩

end Fs0.Lib
