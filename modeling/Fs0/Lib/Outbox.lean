import Mathlib.Order.Basic
import Mathlib.Order.Nat

/-!
Contract: changes of a source that reach a mirror through an outbox.

Owns:
- a source, its mirror, and the numbered entries of the changes that still have to be
  delivered, one for a key, which a later change overwrites in place;
- changes, deliveries in any order, and the removal of entries up to a number;
- the invariant that a key without an entry is mirrored, and the deliveries and
  removals that keep it.

Does not own: what the keys are, and who delivers.
-/

set_option autoImplicit false

namespace Fs0.Lib

universe u

/-- A key is present, or absent, from now on. -/
structure Change (κ : Type u) where
  key : κ
  present : Bool

structure OutboxEntry (κ : Type u) extends Change κ where
  number : Nat

structure Outbox (κ : Type u) where
  source : κ → Prop
  mirror : κ → Prop
  entries : List (OutboxEntry κ)
  /-- The last number given to an entry. -/
  seq : Nat

namespace Outbox

variable {κ : Type u}

def Pending (o : Outbox κ) (key : κ) : Prop := ∃ entry ∈ o.entries, entry.key = key

def Agrees (o : Outbox κ) (key : κ) : Prop := o.mirror key ↔ o.source key

/-! ## Operations -/

/-- A key changes, and its entry with it. -/
structure Changes (o : Outbox κ) (change : Change κ) (o' : Outbox κ) : Prop where
  here : o'.source change.key ↔ change.present = true
  others : ∀ key, key ≠ change.key → (o'.source key ↔ o.source key)
  mirror : o'.mirror = o.mirror
  recorded : o'.Pending change.key
  kept : ∀ entry ∈ o.entries, entry.key = change.key ∨ entry ∈ o'.entries
  entries : ∀ entry ∈ o'.entries, (entry ∈ o.entries ∧ entry.key ≠ change.key) ∨
    (entry.toChange = change ∧
      ((∃ old ∈ o.entries, old.key = change.key ∧ old.number = entry.number) ∨
        (o.seq < entry.number ∧ entry.number ≤ o'.seq)))
  seq : o.seq ≤ o'.seq

/-- The mirror takes a list of changes. -/
structure Delivers (o : Outbox κ) (changes : List (Change κ)) (o' : Outbox κ) : Prop where
  source : o'.source = o.source
  entries : o'.entries = o.entries
  seq : o'.seq = o.seq
  mirror : ∀ key, ((∀ change ∈ changes, change.key ≠ key) ∧ (o'.mirror key ↔ o.mirror key)) ∨
    ∃ change ∈ changes, change.key = key ∧ (o'.mirror key ↔ change.present = true)

/-- The entries up to a number are removed. -/
structure Removes (o : Outbox κ) (last : Nat) (o' : Outbox κ) : Prop where
  source : o'.source = o.source
  mirror : o'.mirror = o.mirror
  seq : o'.seq = o.seq
  entries : ∀ entry, entry ∈ o'.entries ↔ entry ∈ o.entries ∧ last < entry.number

/-! ## Invariants -/

/-- Every entry tells the source as it is, and every key without an entry is mirrored. -/
structure Sound (o : Outbox κ) : Prop where
  truthful : ∀ entry ∈ o.entries, (entry.present = true ↔ o.source entry.key)
  bounded : ∀ entry ∈ o.entries, entry.number ≤ o.seq
  accounted : ∀ key, o.Pending key ∨ o.Agrees key

/-- What was read of the entries up to a number. -/
structure Covers (o : Outbox κ) (changes : List (Change κ)) (last : Nat) : Prop where
  bounded : last ≤ o.seq
  covered : ∀ entry ∈ o.entries, entry.number ≤ last → ∃ change ∈ changes, change.key = entry.key
  pending : ∀ change ∈ changes, o.Pending change.key

/-- The mirror is as a list of changes tells. -/
def Applied (o : Outbox κ) (changes : List (Change κ)) : Prop :=
  ∀ change ∈ changes, (o.mirror change.key ↔ change.present = true)

/-! ## Tests -/

/-- Every change is still true of the source, or its key will be delivered again. -/
def Harmless (o : Outbox κ) (changes : List (Change κ)) : Prop :=
  ∀ change ∈ changes, o.Pending change.key ∨ (change.present = true ↔ o.source change.key)

/-- Two lists of changes agree on the keys they share. -/
def Concur (changes window : List (Change κ)) : Prop :=
  ∀ change ∈ changes, ∀ other ∈ window, other.key = change.key → other.present = change.present

/-- The entries up to a number are still the ones that were read. -/
def Unchanged (o : Outbox κ) (window : List (Change κ)) (last : Nat) : Prop :=
  ∀ entry ∈ o.entries, entry.number ≤ last → entry.toChange ∈ window

variable {o o' : Outbox κ} {change : Change κ} {changes window : List (Change κ)} {last : Nat}

/-! ## Changes -/

theorem Changes.pending (changed : o.Changes change o') {key : κ} (pending : o.Pending key) :
    o'.Pending key := by
  obtain ⟨entry, member, rfl⟩ := pending
  rcases changed.kept entry member with same | stays
  · rw [same]
    exact changed.recorded
  · exact ⟨entry, stays, rfl⟩

theorem Sound.changed (sound : o.Sound) (changed : o.Changes change o') : o'.Sound := by
  constructor
  · intro entry member
    rcases changed.entries entry member with ⟨old, differs⟩ | ⟨isChange, -⟩
    · rw [changed.others entry.key differs]
      exact sound.truthful entry old
    · have key : entry.key = change.key := congrArg Change.key isChange
      have present : entry.present = change.present := congrArg Change.present isChange
      rw [key, present, changed.here]
  · intro entry member
    have grows := changed.seq
    rcases changed.entries entry member with
      ⟨old, -⟩ | ⟨-, ⟨old, among, -, number⟩ | ⟨-, within⟩⟩
    · exact (sound.bounded entry old).trans grows
    · rw [← number]
      exact (sound.bounded old among).trans grows
    · exact within
  · intro key
    by_cases same : key = change.key
    · rw [same]
      exact .inl changed.recorded
    · rcases sound.accounted key with pending | agrees
      · exact .inl (changed.pending pending)
      · refine .inr ?_
        unfold Agrees at agrees ⊢
        rw [changed.mirror, changed.others key same]
        exact agrees

theorem Covers.changed (covers : o.Covers window last) (changed : o.Changes change o') :
    o'.Covers window last := by
  refine ⟨covers.bounded.trans changed.seq, ?_, fun other member =>
    changed.pending (covers.pending other member)⟩
  intro entry member early
  rcases changed.entries entry member with ⟨old, -⟩ |
      ⟨isChange, ⟨old, among, same, number⟩ | ⟨isNew, -⟩⟩
  · exact covers.covered entry old early
  · obtain ⟨other, inWindow, key⟩ := covers.covered old among (number ▸ early)
    exact ⟨other, inWindow, key.trans (same.trans (congrArg Change.key isChange).symm)⟩
  · exact absurd (early.trans covers.bounded) (Nat.not_le.mpr isNew)

theorem Applied.changed (applied : o.Applied window) (changed : o.Changes change o') :
    o'.Applied window := by
  unfold Applied at applied ⊢
  rw [changed.mirror]
  exact applied

/-! ## Deliveries -/

theorem Delivers.pending (delivered : o.Delivers changes o') {key : κ} :
    o'.Pending key ↔ o.Pending key := by
  unfold Pending
  rw [delivered.entries]

theorem Sound.delivered (sound : o.Sound) (delivered : o.Delivers changes o')
    (harmless : o.Harmless changes) : o'.Sound := by
  constructor
  · rw [delivered.entries, delivered.source]
    exact sound.truthful
  · rw [delivered.entries, delivered.seq]
    exact sound.bounded
  · intro key
    rw [delivered.pending]
    unfold Agrees
    rw [delivered.source]
    rcases delivered.mirror key with ⟨-, same⟩ | ⟨change, member, rfl, told⟩
    · rw [same]
      exact sound.accounted key
    · rcases harmless change member with pending | holds
      · exact .inl pending
      · exact .inr (told.trans holds)

theorem Covers.delivered (covers : o.Covers window last) (delivered : o.Delivers changes o') :
    o'.Covers window last := by
  refine ⟨delivered.seq ▸ covers.bounded, ?_, fun other member =>
    delivered.pending.mpr (covers.pending other member)⟩
  rw [delivered.entries]
  exact covers.covered

theorem Covers.harmless (covers : o.Covers window last) : o.Harmless window :=
  fun change member => .inl (covers.pending change member)

/-- What was delivered is mirrored, when the changes are of different keys. -/
theorem Delivers.applied (delivered : o.Delivers changes o') (concur : Concur changes changes) :
    o'.Applied changes := by
  intro change member
  rcases delivered.mirror change.key with ⟨foreign, -⟩ | ⟨other, among, same, told⟩
  · exact absurd rfl (foreign change member)
  · rw [told, concur change member other among same]

/-- Another delivery that agrees with what was delivered changes nothing about it. -/
theorem Applied.delivered (applied : o.Applied window) (delivered : o.Delivers changes o')
    (concur : Concur changes window) : o'.Applied window := by
  intro change member
  rcases delivered.mirror change.key with ⟨-, same⟩ | ⟨other, among, same, told⟩
  · exact same.trans (applied change member)
  · rw [told, concur other among change member same.symm]

/-! ## Removals -/

theorem Sound.removed (sound : o.Sound) (removed : o.Removes last o')
    (applied : o.Applied window) (unchanged : o.Unchanged window last) : o'.Sound := by
  constructor
  · intro entry member
    rw [removed.source]
    exact sound.truthful entry ((removed.entries entry).mp member).1
  · intro entry member
    rw [removed.seq]
    exact sound.bounded entry ((removed.entries entry).mp member).1
  · intro key
    unfold Agrees
    rw [removed.mirror, removed.source]
    rcases sound.accounted key with ⟨entry, member, rfl⟩ | agrees
    · by_cases early : entry.number ≤ last
      · have told := applied entry.toChange (unchanged entry member early)
        exact .inr (told.trans (sound.truthful entry member))
      · exact .inl ⟨entry, (removed.entries entry).mpr ⟨member, Nat.not_le.mp early⟩, rfl⟩
    · exact .inr agrees

end Outbox

end Fs0.Lib
