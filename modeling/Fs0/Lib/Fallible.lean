import Mathlib.Data.List.Forall2

/-!
Contract: computations that may fail and keep the state they reached, and the
rules that carry assertions through them.

Owns:
- the inversion of a sequence that succeeded;
- triples with a postcondition for success and one for failure, and their rules
  for sequencing, conditions and loops over a list;
- the assertions a computation keeps whether or not it fails;
- what holds of every error a computation fails with;
- transactions over a durable and a volatile part, where a failure rolls the
  durable part back and the volatile part survives.

Does not own: what the durable and the volatile part are.
-/

set_option autoImplicit false

namespace Fs0.Lib

universe u

variable {ε σ α β : Type u}

/-- The state a computation ends in, whether or not it failed. -/
def endState : EStateM.Result ε σ α → σ
  | .ok _ s => s
  | .error _ s => s

/-- The value or the error a computation ends with. -/
def outcome : EStateM.Result ε σ α → Except ε α
  | .ok a _ => .ok a
  | .error e _ => .error e

@[simp] theorem endState_ok (a : α) (s : σ) :
    endState (.ok a s : EStateM.Result ε σ α) = s := rfl

@[simp] theorem endState_error (e : ε) (s : σ) :
    endState (.error e s : EStateM.Result ε σ α) = s := rfl

@[simp] theorem outcome_ok (a : α) (s : σ) :
    outcome (.ok a s : EStateM.Result ε σ α) = .ok a := rfl

@[simp] theorem outcome_error (e : ε) (s : σ) :
    outcome (.error e s : EStateM.Result ε σ α) = .error e := rfl

theorem eq_ok_of_outcome {result : EStateM.Result ε σ α} {a : α}
    (returned : outcome result = .ok a) : result = .ok a (endState result) := by
  cases result with
  | ok b s =>
      obtain rfl := Except.ok.inj returned
      rfl
  | error e s => cases returned

namespace Fallible

/-- A result of a pure computation. -/
def lift (result : Except ε α) : EStateM ε σ α := fun s =>
  match result with
  | .ok a => .ok a s
  | .error e => .error e s

/-- Fails unless a condition holds. -/
def require (condition : Prop) [Decidable condition] (err : ε) : EStateM ε σ PUnit := fun s =>
  if condition then .ok ⟨⟩ s else .error err s

/-- Hands the result of a computation on as a value. -/
def attempt (m : EStateM ε σ α) : EStateM ε σ (Except ε α) := fun s =>
  .ok (outcome (m s)) (endState (m s))

/-- `Result::map_err`. -/
def mapError (f : ε → ε) (m : EStateM ε σ α) : EStateM ε σ α := fun s =>
  match m s with
  | .ok a t => .ok a t
  | .error e t => .error (f e) t

/-! ## Inversion -/

theorem bind_apply (m : EStateM ε σ α) (f : α → EStateM ε σ β) (s : σ) :
    (m >>= f) s = match m s with
      | .ok a t => f a t
      | .error e t => .error e t := rfl

theorem bind_of_ok {m : EStateM ε σ α} {f : α → EStateM ε σ β} {s t : σ} {a : α}
    (first : m s = .ok a t) : (m >>= f) s = f a t := by
  rw [bind_apply, first]

theorem bind_of_error {m : EStateM ε σ α} {f : α → EStateM ε σ β} {s t : σ} {e : ε}
    (first : m s = .error e t) : (m >>= f) s = .error e t := by
  rw [bind_apply, first]

/-- A sequence succeeds when both of its parts do. -/
theorem bind_eq_ok {m : EStateM ε σ α} {f : α → EStateM ε σ β} {s s' : σ} {b : β} :
    (m >>= f) s = .ok b s' ↔ ∃ a t, m s = .ok a t ∧ f a t = .ok b s' := by
  rw [bind_apply]
  cases first : m s <;> simp

/-- A sequence fails in its first or in its second part. -/
theorem bind_eq_error {m : EStateM ε σ α} {f : α → EStateM ε σ β} {s s' : σ} {e : ε} :
    (m >>= f) s = .error e s' ↔
      m s = .error e s' ∨ ∃ a t, m s = .ok a t ∧ f a t = .error e s' := by
  rw [bind_apply]
  cases first : m s <;> simp

@[simp] theorem pure_apply (a : α) (s : σ) : (pure a : EStateM ε σ α) s = .ok a s := rfl

@[simp] theorem throw_apply (e : ε) (s : σ) : (throw e : EStateM ε σ α) s = .error e s := rfl

@[simp] theorem get_apply (s : σ) : (get : EStateM ε σ σ) s = .ok s s := rfl

@[simp] theorem set_apply (s t : σ) : (set t : EStateM ε σ PUnit) s = .ok ⟨⟩ t := rfl

@[simp] theorem modify_apply (f : σ → σ) (s : σ) :
    (modify f : EStateM ε σ PUnit) s = .ok ⟨⟩ (f s) := rfl

@[simp] theorem lift_ok_apply (a : α) (s : σ) :
    (lift (.ok a) : EStateM ε σ α) s = .ok a s := rfl

@[simp] theorem lift_error_apply (e : ε) (s : σ) :
    (lift (.error e) : EStateM ε σ α) s = .error e s := rfl

theorem lift_eq_ok {result : Except ε α} {s s' : σ} {a : α} :
    (lift result : EStateM ε σ α) s = .ok a s' ↔ result = .ok a ∧ s' = s := by
  cases result <;> simp [lift, eq_comm]

theorem require_eq_ok {condition : Prop} [Decidable condition] {err : ε} {s s' : σ}
    {done : PUnit} :
    (require condition err : EStateM ε σ PUnit) s = .ok done s' ↔ condition ∧ s' = s := by
  unfold require
  split <;> simp_all [eq_comm]

theorem lift_eq_error {result : Except ε α} {s s' : σ} {e : ε} :
    (lift result : EStateM ε σ α) s = .error e s' ↔ result = .error e ∧ s' = s := by
  cases result <;> simp [lift, eq_comm]

theorem require_eq_error {condition : Prop} [Decidable condition] {err e : ε} {s s' : σ} :
    (require condition err : EStateM ε σ PUnit) s = .error e s' ↔
      ¬ condition ∧ e = err ∧ s' = s := by
  unfold require
  split <;> simp_all [eq_comm]

theorem lift_bind_eq_ok {result : Except ε α} {f : α → EStateM ε σ β} {s s' : σ} {b : β} :
    (lift result >>= f) s = .ok b s' ↔ ∃ a, result = .ok a ∧ f a s = .ok b s' := by
  cases result <;> simp [bind_apply]

theorem require_bind_eq_ok {condition : Prop} [Decidable condition] {err : ε}
    {f : PUnit → EStateM ε σ β} {s s' : σ} {b : β} :
    (require condition err >>= f) s = .ok b s' ↔ condition ∧ f ⟨⟩ s = .ok b s' := by
  rw [bind_apply]
  unfold require
  by_cases met : condition <;> simp [met]

theorem attempt_apply (m : EStateM ε σ α) (s : σ) :
    attempt m s = .ok (outcome (m s)) (endState (m s)) := rfl

theorem mapError_eq_ok {f : ε → ε} {m : EStateM ε σ α} {s s' : σ} {a : α} :
    mapError f m s = .ok a s' ↔ m s = .ok a s' := by
  unfold mapError
  cases m s <;> simp

/-- Mapping succeeds when it does for every item. -/
theorem mapM_eq_ok {f : α → Except ε β} {items : List α} {results : List β} :
    items.mapM f = .ok results ↔ List.Forall₂ (fun item result => f item = .ok result) items results := by
  induction items generalizing results with
  | nil =>
      rw [List.mapM_nil, List.forall₂_nil_left_iff]
      exact ⟨fun ended => (Except.ok.inj ended).symm, fun none => none ▸ rfl⟩
  | cons item rest inductionHypothesis =>
      rw [List.mapM_cons, List.forall₂_cons_left_iff]
      cases first : f item with
      | error err =>
          constructor
          · intro ended
            cases ended
          · rintro ⟨result, others, isResult, -, -⟩
            cases isResult
      | ok result =>
          constructor
          · intro ended
            cases mapped : rest.mapM f with
            | error err =>
                rw [mapped] at ended
                cases ended
            | ok others =>
                rw [mapped] at ended
                exact ⟨result, others, rfl, inductionHypothesis.mp mapped,
                  (Except.ok.inj ended).symm⟩
          · rintro ⟨same, others, isResult, mapped, rfl⟩
            obtain rfl := Except.ok.inj isResult
            rw [inductionHypothesis.mpr mapped]
            rfl

theorem mapM_mem {f : α → Except ε β} {items : List α} {results : List β} {result : β}
    (mapped : items.mapM f = .ok results) (member : result ∈ results) :
    ∃ item ∈ items, f item = .ok result := by
  have paired := mapM_eq_ok.mp mapped
  clear mapped
  induction paired with
  | nil => cases member
  | @cons item first items results isFirst _ inductionHypothesis =>
      rcases List.mem_cons.mp member with rfl | later
      · exact ⟨item, List.mem_cons_self, isFirst⟩
      · obtain ⟨other, otherMem, isOther⟩ := inductionHypothesis later
        exact ⟨other, List.mem_cons_of_mem _ otherMem, isOther⟩

/-- Mapping goes through when every item can be mapped. -/
theorem mapM_succeeds {f : α → Except ε β} {items : List α} :
    (∃ results, items.mapM f = .ok results) ↔ ∀ item ∈ items, ∃ result, f item = .ok result := by
  simp only [mapM_eq_ok]
  induction items with
  | nil => simp
  | cons item rest inductionHypothesis =>
      rw [List.forall_mem_cons, ← inductionHypothesis]
      constructor
      · rintro ⟨results, paired⟩
        obtain ⟨result, others, isResult, areOthers, -⟩ := List.forall₂_cons_left_iff.mp paired
        exact ⟨⟨result, isResult⟩, others, areOthers⟩
      · rintro ⟨⟨result, isResult⟩, others, areOthers⟩
        exact ⟨result :: others, .cons isResult areOthers⟩

/-! ## Triples -/

/-- From a state meeting `P`, the computation ends in success with `Q` or in
failure with `E`. -/
def Triple (P : σ → Prop) (m : EStateM ε σ α) (Q : α → σ → Prop) (E : σ → Prop) : Prop :=
  ∀ s, P s → match m s with
    | .ok a s' => Q a s'
    | .error _ s' => E s'

/-- The computation keeps an assertion, whether or not it fails. -/
def Keeps (I : σ → Prop) (m : EStateM ε σ α) : Prop :=
  Triple I m (fun _ => I) I

theorem Triple.ok {P : σ → Prop} {m : EStateM ε σ α} {Q : α → σ → Prop} {E : σ → Prop}
    {s s' : σ} {a : α} (triple : Triple P m Q E) (pre : P s) (ends : m s = .ok a s') :
    Q a s' := by
  have post := triple s pre
  rw [ends] at post
  exact post

theorem Triple.error {P : σ → Prop} {m : EStateM ε σ α} {Q : α → σ → Prop} {E : σ → Prop}
    {s s' : σ} {e : ε} (triple : Triple P m Q E) (pre : P s) (ends : m s = .error e s') :
    E s' := by
  have post := triple s pre
  rw [ends] at post
  exact post

theorem Triple.intro {P : σ → Prop} {m : EStateM ε σ α} {Q : α → σ → Prop} {E : σ → Prop}
    (ok : ∀ s a s', P s → m s = .ok a s' → Q a s')
    (error : ∀ s e s', P s → m s = .error e s' → E s') : Triple P m Q E := by
  intro s pre
  cases ends : m s with
  | ok a s' => exact ok s a s' pre ends
  | error e s' => exact error s e s' pre ends

theorem Triple.weaken {P P' : σ → Prop} {m : EStateM ε σ α} {Q Q' : α → σ → Prop}
    {E E' : σ → Prop} (triple : Triple P m Q E) (pre : ∀ s, P' s → P s)
    (post : ∀ a s, Q a s → Q' a s) (error : ∀ s, E s → E' s) : Triple P' m Q' E' :=
  Triple.intro (fun s a _ start ends => post a _ (triple.ok (pre s start) ends))
    (fun s _ _ start ends => error _ (triple.error (pre s start) ends))

theorem Triple.bind {P : σ → Prop} {m : EStateM ε σ α} {f : α → EStateM ε σ β}
    {Mid : α → σ → Prop} {Q : β → σ → Prop} {E : σ → Prop} (first : Triple P m Mid E)
    (second : ∀ a, Triple (Mid a) (f a) Q E) : Triple P (m >>= f) Q E := by
  apply Triple.intro
  · intro s b s' pre ends
    obtain ⟨a, t, firstEnds, secondEnds⟩ := bind_eq_ok.mp ends
    exact (second a).ok (first.ok pre firstEnds) secondEnds
  · intro s e s' pre ends
    rcases bind_eq_error.mp ends with failed | ⟨a, t, firstEnds, secondEnds⟩
    · exact first.error pre failed
    · exact (second a).error (first.ok pre firstEnds) secondEnds

theorem Triple.pure {P : σ → Prop} {Q : α → σ → Prop} {E : σ → Prop} {a : α}
    (post : ∀ s, P s → Q a s) : Triple P (Pure.pure a : EStateM ε σ α) Q E :=
  fun s pre => post s pre

theorem Triple.throw {P : σ → Prop} {Q : α → σ → Prop} {E : σ → Prop} {e : ε}
    (error : ∀ s, P s → E s) : Triple P (MonadExcept.throw e : EStateM ε σ α) Q E :=
  fun s pre => error s pre

theorem Triple.lift {P : σ → Prop} {Q : α → σ → Prop} {E : σ → Prop} {result : Except ε α}
    (post : ∀ s a, P s → result = .ok a → Q a s) (error : ∀ s, P s → E s) :
    Triple P (Fallible.lift result : EStateM ε σ α) Q E := by
  intro s pre
  cases result with
  | ok a => exact post s a pre rfl
  | error e => exact error s pre

theorem Triple.require {P : σ → Prop} {Q : PUnit → σ → Prop} {E : σ → Prop}
    {condition : Prop} [Decidable condition] {err : ε}
    (post : ∀ s, P s → condition → Q ⟨⟩ s) (error : ∀ s, P s → E s) :
    Triple P (Fallible.require condition err : EStateM ε σ PUnit) Q E := by
  apply Triple.intro
  · intro s a s' pre ends
    obtain ⟨met, rfl⟩ := require_eq_ok.mp ends
    exact post s' pre met
  · intro s e s' pre ends
    unfold Fallible.require at ends
    split at ends
    · cases ends
    · cases ends
      exact error s pre

theorem Keeps.bind {I : σ → Prop} {m : EStateM ε σ α} {f : α → EStateM ε σ β}
    (first : Keeps I m) (second : ∀ a, Keeps I (f a)) : Keeps I (m >>= f) :=
  Triple.bind first second

theorem Keeps.pure {I : σ → Prop} {a : α} : Keeps I (Pure.pure a : EStateM ε σ α) :=
  Triple.pure fun _ => id

theorem Keeps.throw {I : σ → Prop} {e : ε} :
    Keeps I (MonadExcept.throw e : EStateM ε σ α) :=
  Triple.throw fun _ => id

theorem Keeps.lift {I : σ → Prop} {result : Except ε α} :
    Keeps I (Fallible.lift result : EStateM ε σ α) :=
  Triple.lift (fun _ _ pre _ => pre) fun _ => id

theorem Keeps.require {I : σ → Prop} {condition : Prop} [Decidable condition] {err : ε} :
    Keeps I (Fallible.require condition err : EStateM ε σ PUnit) :=
  Triple.require (fun _ pre _ => pre) fun _ => id

theorem Keeps.ok {I : σ → Prop} {m : EStateM ε σ α} (keeps : Keeps I m) {s s' : σ} {a : α}
    (start : I s) (ends : m s = .ok a s') : I s' :=
  Triple.ok keeps start ends

theorem Keeps.endState {I : σ → Prop} {m : EStateM ε σ α} (keeps : Keeps I m) {s : σ}
    (start : I s) : I (Lib.endState (m s)) := by
  cases ends : m s with
  | ok a s' => exact Triple.ok keeps start ends
  | error e s' => exact Triple.error keeps start ends

/-! ## Errors -/

/-- Every error the computation fails with meets `P`. -/
def Raises (P : ε → Prop) (m : EStateM ε σ α) : Prop := ∀ s e s', m s = .error e s' → P e

theorem Raises.bind {P : ε → Prop} {m : EStateM ε σ α} {f : α → EStateM ε σ β}
    (first : Raises P m) (second : ∀ a, Raises P (f a)) : Raises P (m >>= f) := by
  intro s e s' ends
  rcases bind_eq_error.mp ends with failed | ⟨a, t, -, failed⟩
  · exact first s e s' failed
  · exact second a t e s' failed

theorem Raises.pure {P : ε → Prop} {a : α} : Raises P (Pure.pure a : EStateM ε σ α) :=
  fun _ _ _ ends => nomatch ends

theorem Raises.throw {P : ε → Prop} {e : ε} (raised : P e) :
    Raises P (MonadExcept.throw e : EStateM ε σ α) := by
  intro s e' s' ends
  cases ends
  exact raised

theorem Raises.lift {P : ε → Prop} {result : Except ε α}
    (raised : ∀ e, result = .error e → P e) :
    Raises P (Fallible.lift result : EStateM ε σ α) := by
  intro s e s' ends
  cases result with
  | ok a => cases ends
  | error e' =>
      cases ends
      exact raised e rfl

theorem Raises.require {P : ε → Prop} {condition : Prop} [Decidable condition] {err : ε}
    (raised : P err) : Raises P (Fallible.require condition err : EStateM ε σ PUnit) := by
  intro s e s' ends
  unfold Fallible.require at ends
  split at ends
  · cases ends
  · cases ends
    exact raised

/-- What was caught is a value; only what follows can fail. -/
theorem Raises.attempt_bind {P : ε → Prop} {m : EStateM ε σ α}
    {f : Except ε α → EStateM ε σ β} (first : Raises P m)
    (second : ∀ a, Raises P (f (.ok a))) (caught : ∀ e, P e → Raises P (f (.error e))) :
    Raises P (attempt m >>= f) := by
  intro s e s' ends
  rw [bind_apply, attempt_apply] at ends
  cases ran : m s with
  | ok a t =>
      rw [ran] at ends
      exact second a t e s' ends
  | error e' t =>
      rw [ran] at ends
      exact caught e' (first s e' t ran) t e s' ends

/-! ## Agreement of two runs -/

/-- From related states the computation ends twice in the same way: with one
value and states related by `Q`, or with one error and states related by `E`. -/
def Agree (R : σ → σ → Prop) (m : EStateM ε σ α) (Q : α → σ → σ → Prop) (E : σ → σ → Prop) :
    Prop :=
  ∀ s s', R s s' → match m s, m s' with
    | .ok a t, .ok a' t' => a = a' ∧ Q a t t'
    | .error e t, .error e' t' => e = e' ∧ E t t'
    | _, _ => False

/-- The computation cannot tell related states apart and keeps them related. -/
def Respects (R : σ → σ → Prop) (m : EStateM ε σ α) : Prop :=
  Agree R m (fun _ => R) R

variable {R E : σ → σ → Prop}

theorem Agree.weaken {m : EStateM ε σ α} {R' E' : σ → σ → Prop} {Q Q' : α → σ → σ → Prop}
    (agree : Agree R m Q E) (pre : ∀ s s', R' s s' → R s s')
    (post : ∀ a t t', Q a t t' → Q' a t t') (error : ∀ t t', E t t' → E' t t') :
    Agree R' m Q' E' := by
  intro s s' related
  have ends := agree s s' (pre s s' related)
  cases left : m s <;> cases right : m s' <;> rw [left, right] at ends
  · exact ⟨ends.1, post _ _ _ ends.2⟩
  · exact ends
  · exact ends
  · exact ⟨ends.1, error _ _ ends.2⟩

theorem Agree.bind {m : EStateM ε σ α} {f : α → EStateM ε σ β} {Mid : α → σ → σ → Prop}
    {Q : β → σ → σ → Prop} (first : Agree R m Mid E) (second : ∀ a, Agree (Mid a) (f a) Q E) :
    Agree R (m >>= f) Q E := by
  intro s s' related
  have ends := first s s' related
  cases left : m s <;> cases right : m s' <;> rw [left, right] at ends
  · obtain ⟨rfl, mid⟩ := ends
    rw [bind_of_ok left, bind_of_ok right]
    exact second _ _ _ mid
  · exact ends.elim
  · exact ends.elim
  · rw [bind_of_error left, bind_of_error right]
    exact ends

theorem Agree.pure {Q : α → σ → σ → Prop} {a : α} (post : ∀ s s', R s s' → Q a s s') :
    Agree R (Pure.pure a : EStateM ε σ α) Q E :=
  fun s s' related => ⟨rfl, post s s' related⟩

theorem Agree.lift {Q : α → σ → σ → Prop} {result : Except ε α}
    (post : ∀ s s' a, R s s' → result = .ok a → Q a s s') (error : ∀ s s', R s s' → E s s') :
    Agree R (Fallible.lift result : EStateM ε σ α) Q E := by
  intro s s' related
  cases result with
  | ok a => exact ⟨rfl, post s s' a related rfl⟩
  | error e => exact ⟨rfl, error s s' related⟩

theorem Agree.outcome_eq {m : EStateM ε σ α} {Q : α → σ → σ → Prop} (agree : Agree R m Q E)
    {s s' : σ} (related : R s s') : outcome (m s) = outcome (m s') := by
  have ends := agree s s' related
  cases left : m s <;> cases right : m s' <;> rw [left, right] at ends
  · rw [outcome_ok, outcome_ok, ends.1]
  · exact ends.elim
  · exact ends.elim
  · rw [outcome_error, outcome_error, ends.1]

/-- What agreement says of a single run from a state related to itself. -/
theorem Agree.triple {m : EStateM ε σ α} {Q : α → σ → σ → Prop} (agree : Agree R m Q E) :
    Triple (fun s => R s s) m (fun a t => Q a t t) fun t => E t t := by
  intro s related
  have ends := agree s s related
  cases ran : m s <;> rw [ran] at ends
  · exact ends.2
  · exact ends.2

theorem Respects.bind {m : EStateM ε σ α} {f : α → EStateM ε σ β} (first : Respects R m)
    (second : ∀ a, Respects R (f a)) : Respects R (m >>= f) :=
  Agree.bind first second

theorem Respects.pure {a : α} : Respects R (Pure.pure a : EStateM ε σ α) :=
  Agree.pure fun _ _ => id

theorem Respects.lift {result : Except ε α} :
    Respects R (Fallible.lift result : EStateM ε σ α) :=
  Agree.lift (fun _ _ _ related _ => related) fun _ _ => id

theorem Respects.require {condition : Prop} [Decidable condition] {err : ε} :
    Respects R (Fallible.require condition err : EStateM ε σ PUnit) := by
  intro s s' related
  unfold Fallible.require
  by_cases met : condition <;> simp [met, related]

/-! ## Transactions -/

variable {durable volatile : Type u}

/-- Runs a computation as a transaction and commits it. A failure of the
computation or of the commit rolls the durable part back. -/
def transact (commit : Option ε) (m : EStateM ε (durable × volatile) α) :
    EStateM ε (durable × volatile) α := fun s =>
  match m s, commit with
  | .ok a s', none => .ok a s'
  | .ok _ s', some err => .error err (s.1, s'.2)
  | .error e s', _ => .error e (s.1, s'.2)

/-- Runs a computation as a transaction that is dropped without a commit. -/
def inspect (m : EStateM ε (durable × volatile) α) : EStateM ε (durable × volatile) α := fun s =>
  match m s with
  | .ok a s' => .ok a (s.1, s'.2)
  | .error e s' => .error e (s.1, s'.2)

theorem transact_eq_ok {commit : Option ε} {m : EStateM ε (durable × volatile) α}
    {s s' : durable × volatile} {a : α} :
    transact commit m s = .ok a s' ↔ m s = .ok a s' ∧ commit = none := by
  unfold transact
  cases m s <;> cases commit <;> simp

/-- A transaction that fails leaves the durable part as it was. -/
theorem transact_eq_error {commit : Option ε} {m : EStateM ε (durable × volatile) α}
    {s s' : durable × volatile} {e : ε} (failed : transact commit m s = .error e s') :
    s' = (s.1, (endState (m s)).2) := by
  unfold transact at failed
  cases ends : m s <;> cases commit <;> simp_all

theorem inspect_endState (m : EStateM ε (durable × volatile) α) (s : durable × volatile) :
    endState (inspect m s) = (s.1, (endState (m s)).2) := by
  unfold inspect
  cases m s <;> rfl

end Fallible

end Fs0.Lib
