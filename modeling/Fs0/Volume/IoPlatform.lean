import Fs0.Volume.Volume

/-!
Contract: the loops that read and write a range of a data file.

Owns:
- `io_platform::read_at` and `write_at` over any sequence of partial transfers;
- that they end, what they return, and what the file or the buffer holds then.

Does not own: which range a chunk has, and other calls on the same file.
-/

set_option autoImplicit false

namespace Fs0

open Lib

/-! ## Operating system -/

/-- `io::Error`. -/
inductive IoError where
  | unexpectedEof (message : String)
  | writeZero (message : String)
  | os (code : Int) (message : String)
deriving DecidableEq, Repr

/-- `io::Error::to_string`. -/
def IoError.message : IoError → String
  | .unexpectedEof message => message
  | .writeZero message => message
  | .os _ message => message

/-- What the operating system answers to the calls of a loop, each about a length at an
offset. -/
abbrev OsTransfers := (call offset len : Nat) → Except IoError Nat

/-- What is documented of the answers. -/
structure OsTransfers.Documented (os : OsTransfers) : Prop where
  /-- At most the bytes that were asked for. -/
  short : ∀ {call offset len count}, os call offset len = .ok count → count ≤ len
  /-- Positions are an `off_t`. -/
  position : ∀ {call offset len count}, os call offset len = .ok count → count ≠ 0 →
    offset + count ≤ i64Max

/-! ## Loops -/

namespace IoPlatform

/-- How a loop ended: its result, and the bytes it worked on. -/
structure Ended (α : Type) where
  result : Except IoError Unit
  bytes : α

def failedToFill : IoError := .unexpectedEof "failed to fill whole buffer"

def failedToWrite : IoError := .writeZero "failed to write whole buffer"

/-- The loop of `write_at`, for so many iterations. -/
def writeLoop (os : OsTransfers) : (fuel call : Nat) → (file : Nat → UInt8) → (offset : Nat) →
    (buf : Bytes) → Option (Ended (Nat → UInt8))
  | _, _, file, _, [] => some ⟨.ok (), file⟩
  | 0, _, _, _, _ :: _ => none
  | fuel + 1, call, file, offset, byte :: rest =>
      let buf := byte :: rest
      match os call offset buf.length with
      | .error err => some ⟨.error err, file⟩
      | .ok 0 => some ⟨.error failedToWrite, file⟩
      | .ok (more + 1) =>
          let written := more + 1
          -- The operating system takes the bytes, then the loop goes on behind them.
          let file := overwrite file offset (buf.take written)
          writeLoop os fuel (call + 1) file ((offset + written) % u64Modulus) (buf.drop written)

/-- The loop of `read_at`, for so many iterations, with the part of the buffer that is filled. -/
def readLoop (os : OsTransfers) (file : Nat → UInt8) : (fuel call offset : Nat) →
    (filled buf : Bytes) → Option (Ended Bytes)
  | _, _, _, filled, [] => some ⟨.ok (), filled⟩
  | 0, _, _, _, _ :: _ => none
  | fuel + 1, call, offset, filled, byte :: rest =>
      let buf := byte :: rest
      match os call offset buf.length with
      | .error err => some ⟨.error err, filled ++ buf⟩
      | .ok 0 => some ⟨.error failedToFill, filled ++ buf⟩
      | .ok (more + 1) =>
          let read := more + 1
          readLoop os file fuel (call + 1) ((offset + read) % u64Modulus)
            (filled ++ slice file offset read) (buf.drop read)

def writeAt (os : OsTransfers) (file : Nat → UInt8) (offset : Nat) (buf : Bytes) :
    Option (Ended (Nat → UInt8)) :=
  writeLoop os buf.length 0 file offset buf

def readAt (os : OsTransfers) (file : Nat → UInt8) (offset : Nat) (buf : Bytes) :
    Option (Ended Bytes) :=
  readLoop os file buf.length 0 offset [] buf

/-! ## Answers to a loop -/

variable {os : OsTransfers} {call offset len count : Nat} {counts counts' : List Nat}

/-- The first calls of a loop over a range have transferred these counts, none of them zero. -/
inductive Reached (os : OsTransfers) : (call offset len : Nat) → List Nat → Prop
  | start (call offset len : Nat) : Reached os call offset len []
  | more {call offset len count : Nat} {counts : List Nat} (positive : 0 < count)
      (ran : os call offset len = .ok count)
      (later : Reached os (call + 1) (offset + count) (len - count) counts) :
      Reached os call offset len (count :: counts)

/-- What the call after these is answered. -/
def answer (os : OsTransfers) (call offset len : Nat) (counts : List Nat) : Except IoError Nat :=
  os (call + counts.length) (offset + counts.sum) (len - counts.sum)

theorem answer_cons : answer os call offset len (count :: counts) =
    answer os (call + 1) (offset + count) (len - count) counts := by
  unfold answer
  rw [List.length_cons, List.sum_cons, Nat.sub_sub, Nat.add_assoc offset]
  congr 1
  omega

/-- No further bytes are transferred after these counts. -/
def Stopped (os : OsTransfers) (call offset len : Nat) (counts : List Nat) : Prop :=
  ∀ count, answer os call offset len counts = .ok count → count = 0

theorem Stopped.tail (stopped : Stopped os call offset len (count :: counts)) :
    Stopped os (call + 1) (offset + count) (len - count) counts := by
  unfold Stopped at stopped
  rw [answer_cons] at stopped
  exact stopped

/-- The answers determine how far a loop gets. -/
theorem Reached.unique (reached : Reached os call offset len counts)
    (stopped : Stopped os call offset len counts) (reached' : Reached os call offset len counts')
    (stopped' : Stopped os call offset len counts') : counts = counts' := by
  induction reached generalizing counts' with
  | start call offset len =>
      cases reached' with
      | start => rfl
      | more positive ran _ => exact absurd (stopped _ ran) (Nat.ne_of_gt positive)
  | more positive ran later inductionHypothesis =>
      cases reached' with
      | start => exact absurd (stopped' _ ran) (Nat.ne_of_gt positive)
      | more _ ran' later' =>
          obtain rfl := Except.ok.inj (ran.symm.trans ran')
          rw [inductionHypothesis stopped.tail later' stopped'.tail]

/-- What a loop returns after these counts. -/
inductive Returns (os : OsTransfers) (zero : IoError) (call offset len : Nat) (counts : List Nat) :
    Except IoError Unit → Prop
  | whole (all : counts.sum = len) : Returns os zero call offset len counts (.ok ())
  | zero (short : counts.sum < len) (ran : answer os call offset len counts = .ok 0) :
      Returns os zero call offset len counts (.error zero)
  | failed (short : counts.sum < len) (err : IoError)
      (ran : answer os call offset len counts = .error err) :
      Returns os zero call offset len counts (.error err)

theorem Returns.cons {zero : IoError} {result : Except IoError Unit} (within : count ≤ len)
    (returns : Returns os zero (call + 1) (offset + count) (len - count) counts result) :
    Returns os zero call offset len (count :: counts) result := by
  have sum : (count :: counts).sum = count + counts.sum := List.sum_cons
  cases returns with
  | whole all => exact .whole (by omega)
  | zero short ran => exact .zero (by omega) (answer_cons.trans ran)
  | failed short err ran => exact .failed (by omega) err (answer_cons.trans ran)

theorem Returns.stopped {zero : IoError} {result : Except IoError Unit}
    (documented : os.Documented) (returns : Returns os zero call offset len counts result) :
    Stopped os call offset len counts := by
  intro count ran
  cases returns with
  | whole all =>
      unfold answer at ran
      have none := documented.short ran
      omega
  | zero short ran' => exact Except.ok.inj (ran.symm.trans ran')
  | failed short err ran' => cases ran.symm.trans ran'

/-- How a loop over a range ends. It returns without an error when every byte was transferred,
as it is when each call transfers some, and with an error when a call transfers none or fails. -/
structure Complete (os : OsTransfers) (offset len : Nat) (zero : IoError)
    (result : Except IoError Unit) : Prop where
  whole : result = .ok () ↔ ∃ counts, Reached os 0 offset len counts ∧ counts.sum = len
  positive : (∀ counts, Reached os 0 offset len counts → counts.sum < len →
    ∃ count, 0 < count ∧ answer os 0 offset len counts = .ok count) → result = .ok ()
  zero : ∀ counts, Reached os 0 offset len counts → counts.sum < len →
    answer os 0 offset len counts = .ok 0 → result = .error zero
  failed : ∀ counts err, Reached os 0 offset len counts → counts.sum < len →
    answer os 0 offset len counts = .error err → result = .error err

theorem Returns.complete {zero : IoError} {result : Except IoError Unit}
    (documented : os.Documented) (reached : Reached os 0 offset len counts)
    (returns : Returns os zero 0 offset len counts result) :
    Complete os offset len zero result := by
  -- Any counts after which nothing more is transferred are those of the loop.
  have same : ∀ {counts'}, Reached os 0 offset len counts' → Stopped os 0 offset len counts' →
      Returns os zero 0 offset len counts' result := fun reached' stopped' =>
    reached'.unique stopped' reached (returns.stopped documented) ▸ returns
  refine ⟨⟨fun isOk => ?_, fun ⟨counts', reached', all⟩ => ?_⟩, fun positive => ?_,
    fun counts' reached' short ran => ?_, fun counts' err reached' short ran => ?_⟩
  · cases returns with
    | whole all => exact ⟨counts, reached, all⟩
    | zero short ran => cases isOk
    | failed short err ran => cases isOk
  · have stopped := @Returns.stopped os 0 offset len counts' zero (.ok ()) documented (.whole all)
    cases same reached' stopped with
    | whole _ => rfl
    | zero short _ => omega
    | failed short err _ => omega
  · cases returns with
    | whole all => rfl
    | zero short ran =>
        obtain ⟨count, some, ran'⟩ := positive counts reached short
        exact absurd (Except.ok.inj (ran'.symm.trans ran)) (Nat.ne_of_gt some)
    | failed short err ran =>
        obtain ⟨count, some, ran'⟩ := positive counts reached short
        cases ran'.symm.trans ran
  · have stopped : Stopped os 0 offset len counts' := fun count ran' =>
      Except.ok.inj (ran'.symm.trans ran)
    cases same reached' stopped with
    | whole all => omega
    | zero _ _ => rfl
    | failed _ err ran' => cases ran.symm.trans ran'
  · have stopped : Stopped os 0 offset len counts' := fun count ran' => by
      cases ran'.symm.trans ran
    cases same reached' stopped with
    | whole all => omega
    | zero _ ran' => cases ran.symm.trans ran'
    | failed _ err' ran' => rw [Except.error.inj (ran.symm.trans ran')]

/-! ## What a loop leaves behind -/

/-- A position that the operating system has transferred to does not wrap. -/
theorem next_offset (documented : os.Documented) (ran : os call offset len = .ok count)
    (some : count ≠ 0) : (offset + count) % u64Modulus = offset + count := by
  have small : i64Max < u64Modulus := by decide
  exact Nat.mod_eq_of_lt (Nat.lt_of_le_of_lt (documented.position ran some) small)

theorem overwrite_overwrite (file : Nat → UInt8) (offset : Nat) (first second : Bytes) :
    overwrite (overwrite file offset first) (offset + first.length) second =
      overwrite file offset (first ++ second) := by
  funext p
  by_cases early : p < offset + first.length
  · rw [overwrite_outside (.inl early)]
    by_cases before : p < offset
    · rw [overwrite_outside (.inl before), overwrite_outside (.inl before)]
    · obtain ⟨index, rfl⟩ := Nat.exists_eq_add_of_le (Nat.le_of_not_lt before)
      have inFirst : index < first.length := by omega
      have inBoth : index < (first ++ second).length := by
        rw [List.length_append]
        omega
      rw [overwrite_inside inFirst, overwrite_inside inBoth, List.getElem_append_left inFirst]
  · obtain ⟨index, rfl⟩ := Nat.exists_eq_add_of_le (Nat.le_of_not_lt early)
    by_cases inside : index < second.length
    · have inBoth : first.length + index < (first ++ second).length := by
        rw [List.length_append]
        omega
      have behind : overwrite file offset (first ++ second) (offset + (first.length + index)) =
          (first ++ second)[first.length + index] := overwrite_inside inBoth
      rw [List.getElem_append_right (Nat.le_add_right _ _)] at behind
      rw [overwrite_inside inside, Nat.add_assoc, behind]
      simp only [Nat.add_sub_cancel_left]
    · have beyond : (first ++ second).length = first.length + second.length := List.length_append
      rw [overwrite_outside (by omega), overwrite_outside (by omega), overwrite_outside (by omega)]

/-- A loop that writes has written as much of the buffer as was transferred. -/
theorem writeLoop_ends (documented : os.Documented) {fuel call offset : Nat} {file : Nat → UInt8}
    {buf : Bytes} (enough : buf.length ≤ fuel) : ∃ counts result,
    Reached os call offset buf.length counts ∧ counts.sum ≤ buf.length ∧
      Returns os failedToWrite call offset buf.length counts result ∧
      writeLoop os fuel call file offset buf =
        some ⟨result, overwrite file offset (buf.take counts.sum)⟩ := by
  induction fuel generalizing call file offset buf with
  | zero =>
      obtain rfl := List.length_eq_zero_iff.mp (Nat.le_zero.mp enough)
      refine ⟨[], .ok (), .start _ _ _, Nat.le_refl _, .whole rfl, ?_⟩
      rw [List.sum_nil, List.take_zero, overwrite_nil]
      rfl
  | succ fuel inductionHypothesis =>
      cases buf with
      | nil =>
          refine ⟨[], .ok (), .start _ _ _, Nat.le_refl _, .whole rfl, ?_⟩
          rw [List.sum_nil, List.take_zero, overwrite_nil, writeLoop]
      | cons byte rest =>
          have some : ([] : List Nat).sum < (byte :: rest).length := Nat.succ_pos _
          rw [writeLoop]
          dsimp only
          split
          next err ran =>
            refine ⟨[], _, .start _ _ _, Nat.zero_le _, .failed some err ran, ?_⟩
            rw [List.sum_nil, List.take_zero, overwrite_nil]
          next ran =>
            refine ⟨[], _, .start _ _ _, Nat.zero_le _, .zero some ran, ?_⟩
            rw [List.sum_nil, List.take_zero, overwrite_nil]
          next more ran =>
            -- What is left is shorter, and is written right behind what was taken.
            generalize byte :: rest = buf at enough ran ⊢
            have short := documented.short ran
            have taken : (buf.take (more + 1)).length = more + 1 := List.length_take_of_le short
            have fewer : (buf.drop (more + 1)).length ≤ fuel := by
              rw [List.length_drop]
              omega
            obtain ⟨counts, result, reached, within, returns, ran'⟩ :=
              @inductionHypothesis (call + 1) (offset + (more + 1))
                (overwrite file offset (buf.take (more + 1))) (buf.drop (more + 1)) fewer
            rw [List.length_drop] at reached within returns
            have joined := overwrite_overwrite file offset (buf.take (more + 1))
              ((buf.drop (more + 1)).take counts.sum)
            rw [taken, ← List.take_add] at joined
            refine ⟨(more + 1) :: counts, result, .more (Nat.succ_pos _) ran reached, ?_,
              returns.cons short, ?_⟩
            · rw [List.sum_cons]
              omega
            · rw [next_offset documented ran (Nat.succ_ne_zero _), ran', joined, List.sum_cons]

/-- A loop that reads has filled as much of the buffer as was transferred. -/
theorem readLoop_ends (documented : os.Documented) {file : Nat → UInt8} {fuel call offset : Nat}
    {filled buf : Bytes} (enough : buf.length ≤ fuel) : ∃ counts result,
    Reached os call offset buf.length counts ∧ counts.sum ≤ buf.length ∧
      Returns os failedToFill call offset buf.length counts result ∧
      readLoop os file fuel call offset filled buf = some ⟨result,
        filled ++ slice file offset counts.sum ++ buf.drop counts.sum⟩ := by
  induction fuel generalizing call offset filled buf with
  | zero =>
      obtain rfl := List.length_eq_zero_iff.mp (Nat.le_zero.mp enough)
      refine ⟨[], .ok (), .start _ _ _, Nat.le_refl _, .whole rfl, ?_⟩
      rw [List.sum_nil, slice_zero, List.append_nil, List.drop_zero, List.append_nil]
      rfl
  | succ fuel inductionHypothesis =>
      cases buf with
      | nil =>
          refine ⟨[], .ok (), .start _ _ _, Nat.le_refl _, .whole rfl, ?_⟩
          rw [List.sum_nil, slice_zero, List.append_nil, List.drop_zero, List.append_nil, readLoop]
      | cons byte rest =>
          have some : ([] : List Nat).sum < (byte :: rest).length := Nat.succ_pos _
          rw [readLoop]
          dsimp only
          split
          next err ran =>
            refine ⟨[], _, .start _ _ _, Nat.zero_le _, .failed some err ran, ?_⟩
            rw [List.sum_nil, slice_zero, List.append_nil, List.drop_zero]
          next ran =>
            refine ⟨[], _, .start _ _ _, Nat.zero_le _, .zero some ran, ?_⟩
            rw [List.sum_nil, slice_zero, List.append_nil, List.drop_zero]
          next more ran =>
            generalize byte :: rest = buf at enough ran ⊢
            have short := documented.short ran
            have fewer : (buf.drop (more + 1)).length ≤ fuel := by
              rw [List.length_drop]
              omega
            obtain ⟨counts, result, reached, within, returns, ran'⟩ :=
              @inductionHypothesis (call + 1) (offset + (more + 1))
                (filled ++ slice file offset (more + 1)) (buf.drop (more + 1)) fewer
            rw [List.length_drop] at reached within returns
            have joined : filled ++ slice file offset (more + 1) ++
                slice file (offset + (more + 1)) counts.sum =
                  filled ++ slice file offset (more + 1 + counts.sum) := by
              rw [List.append_assoc, ← slice_add]
            refine ⟨(more + 1) :: counts, result, .more (Nat.succ_pos _) ran reached, ?_,
              returns.cons short, ?_⟩
            · rw [List.sum_cons]
              omega
            · rw [next_offset documented ran (Nat.succ_ne_zero _), ran', joined, List.drop_drop,
                List.sum_cons]

/-- `write_at` ends, without an error only when the range holds the whole buffer, and writes
nothing else. `read_at` ends, without an error only when the whole buffer holds the range. What
they return follows from what the operating system answers to their calls. -/
theorem transfers_end (os : OsTransfers) (documented : os.Documented) (file : Nat → UInt8)
    (offset : Nat) (buf : Bytes) :
    (∃ result after, writeAt os file offset buf = some ⟨result, after⟩ ∧
      Complete os offset buf.length failedToWrite result ∧
      (∀ p, p < offset ∨ offset + buf.length ≤ p → after p = file p) ∧
      (result = .ok () → slice after offset buf.length = buf)) ∧
    ∃ result got, readAt os file offset buf = some ⟨result, got⟩ ∧
      Complete os offset buf.length failedToFill result ∧ got.length = buf.length ∧
      (result = .ok () → got = slice file offset buf.length) := by
  constructor
  · obtain ⟨counts, result, reached, within, returns, ran⟩ :=
      @writeLoop_ends os documented buf.length 0 offset file buf (Nat.le_refl _)
    refine ⟨result, _, ran, returns.complete documented reached, fun p outside => ?_, fun isOk => ?_⟩
    · have length : (buf.take counts.sum).length = counts.sum := List.length_take_of_le within
      exact overwrite_outside (by omega)
    · subst isOk
      cases returns with
      | whole all => rw [all, List.take_length, slice_overwrite]
  · obtain ⟨counts, result, reached, within, returns, ran⟩ :=
      @readLoop_ends os documented file buf.length 0 offset [] buf (Nat.le_refl _)
    refine ⟨result, _, ran, returns.complete documented reached, ?_, fun isOk => ?_⟩
    · rw [List.nil_append, List.length_append, slice_length, List.length_drop]
      omega
    · subst isOk
      cases returns with
      | whole all => rw [all, List.nil_append, List.drop_length, List.append_nil]

namespace ShortTransfers

/-- Two bytes in every call, within the positions there are. -/
def twoAtATime : OsTransfers := fun _ offset len =>
  if offset + min len 2 ≤ i64Max then .ok (min len 2)
  else .error (.os 22 "Invalid argument (os error 22)")

/-- A file that ends after the first two bytes of a range. -/
def endsEarly : OsTransfers := fun call offset len =>
  if call = 0 then twoAtATime call offset len else .ok 0

theorem twoAtATime_documented : twoAtATime.Documented where
  short ran := by
    unfold twoAtATime at ran
    split at ran
    · obtain rfl := Except.ok.inj ran
      exact Nat.min_le_left _ _
    · cases ran
  position ran some := by
    unfold twoAtATime at ran
    split at ran
    next fits =>
      obtain rfl := Except.ok.inj ran
      exact fits
    next => cases ran

theorem endsEarly_documented : endsEarly.Documented where
  short ran := by
    unfold endsEarly at ran
    split at ran
    · exact twoAtATime_documented.short ran
    · obtain rfl := Except.ok.inj ran
      exact Nat.zero_le _
  position ran some := by
    unfold endsEarly at ran
    split at ran
    · exact twoAtATime_documented.position ran some
    · exact absurd (Except.ok.inj ran).symm some

end ShortTransfers

open ShortTransfers in
/-- Five bytes are written two at a time, and a read of five bytes of a shorter file fails. -/
theorem transfers_end_short :
    (∃ after, writeAt twoAtATime (fun _ => 0) 10 [1, 2, 3, 4, 5] = some ⟨.ok (), after⟩ ∧
      slice after 10 5 = [1, 2, 3, 4, 5]) ∧
    ∃ got, readAt endsEarly (fun _ => 7) 10 [0, 0, 0, 0, 0] =
      some ⟨.error failedToFill, got⟩ := by
  obtain ⟨⟨result, after, wrote, complete, -, holds⟩, -⟩ :=
    transfers_end twoAtATime twoAtATime_documented (fun _ => 0) 10 [1, 2, 3, 4, 5]
  have isOk : result = .ok () := complete.whole.mpr
    ⟨[2, 2, 1], .more (by decide) rfl (.more (by decide) rfl (.more (by decide) rfl (.start _ _ _))),
      rfl⟩
  obtain ⟨-, result', got, read, complete', -⟩ :=
    transfers_end endsEarly endsEarly_documented (fun _ => 7) 10 [0, 0, 0, 0, 0]
  have fails : result' = .error failedToFill :=
    complete'.zero [2] (.more (by decide) rfl (.start _ _ _)) (by decide) rfl
  exact ⟨⟨after, isOk ▸ wrote, holds isOk⟩, got, fails ▸ read⟩

end IoPlatform

/-- An error of the operating system, as the data file cache returns it. -/
def DataFileCache.ioError (err : IoError) : Fs0Error := .io err.message

end Fs0
