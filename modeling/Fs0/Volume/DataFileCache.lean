import Mathlib.Logic.Function.Basic
import Fs0.Lib.DiskFile
import Fs0.Volume.IoPlatform

/-!
Contract: the calls of one volume's data file cache, in any order of their steps.

Owns:
- the slots with their open files, the permits, and the stages of `read_at` and `write_at`;
- the sweep that closes idle files, callers that go away, restarts and crashes;
- what each step does, and the history and the open files of every state reached.

Does not own: which ranges the chunks of a volume have.
-/

set_option autoImplicit false

namespace Fs0

open Lib

def volumeDataFileIdleTtlMs : Nat := 60000

/-! ## Calls -/

/-- What `with_capacity` is called with. -/
structure DataFileCacheConfig where
  dataFiles : Nat
  maxReaders : Nat
  maxWriters : Nat

/-- A file that was opened: the data file of this index. -/
structure OpenFile where
  index : Nat
deriving DecidableEq

structure DataFileSlot where
  file : Option OpenFile
  /-- The call that holds the mutex of `file`. -/
  locked : Option Nat
  lastAccessMs : Nat
deriving DecidableEq

def DataFileSlot.new : DataFileSlot := ⟨none, none, 0⟩

inductive CacheRequest where
  | readAt (index offset len : Nat)
  | writeAt (index offset : Nat) (bytes : Bytes)
deriving DecidableEq

namespace CacheRequest

def index : CacheRequest → Nat
  | .readAt index _ _ => index
  | .writeAt index _ _ => index

/-- How many bytes are to be transferred. -/
def size : CacheRequest → Nat
  | .readAt _ _ len => len
  | .writeAt _ _ bytes => bytes.length

/-- `create_if_missing`, and which of the two semaphores is acquired. -/
def writes : CacheRequest → Bool
  | .readAt _ _ _ => false
  | .writeAt _ _ _ => true

/-- The call writes the byte at a position of a file. -/
def Covers (request : CacheRequest) (index p : Nat) : Prop :=
  match request with
  | .readAt _ _ _ => False
  | .writeAt index' offset bytes => index' = index ∧ offset ≤ p ∧ p < offset + bytes.length

end CacheRequest

/-- Where a call stands. -/
inductive CacheStage where
  /-- Before the mutex of its slot. -/
  | opening
  /-- A write has opened the file and holds the mutex. -/
  | opened (file : OpenFile)
  /-- Before the semaphore. -/
  | waiting (file : OpenFile)
  /-- The loop over the buffer, with the part of it that was transferred. -/
  | transferring (file : OpenFile) (buf : Bytes)
deriving DecidableEq

structure CacheCall where
  call : Nat
  request : CacheRequest
  stage : CacheStage
  /-- The future of the call was dropped. What it has spawned goes on. -/
  dropped : Bool
deriving DecidableEq

/-- History: the calls and what they returned. A write that succeeds returns no bytes. -/
inductive CacheRecord where
  | began (call : Nat) (request : CacheRequest)
  | returned (call : Nat) (request : CacheRequest) (result : Fs0Result Bytes)
deriving DecidableEq

/-- The cache, the files under its root, and its calls. -/
structure DataFileCache where
  readSem : Nat
  writeSem : Nat
  slots : List DataFileSlot
  files : Nat → Option (DiskFile UInt8)
  calls : SeqTable CacheCall.call
  /-- The slots that `close_idle` has found idle. -/
  idle : List Nat
  /-- Newest first. -/
  history : List CacheRecord

inductive CacheEvent where
  | call (request : CacheRequest)
  /-- The slot has a file. -/
  | reuse (call : Nat)
  /-- `OpenOptions::open`. -/
  | openFile (call : Nat) (result : Except IoError Unit)
  /-- `metadata`, and `preallocate` if the file is short. -/
  | preallocate (call : Nat) (result : Except IoError Unit)
  /-- A permit is acquired, and the slot is touched. -/
  | acquire (call now : Nat)
  /-- The operating system transfers some bytes. -/
  | transfer (call count : Nat)
  /-- The operating system transfers none. -/
  | transferStops (call : Nat)
  | transferFails (call : Nat) (err : IoError)
  /-- A read has its buffer. -/
  | endRead (call : Nat)
  /-- `sync_data`. -/
  | syncData (call : Nat) (result : Except IoError Unit)
  /-- The caller goes away. -/
  | drop (call : Nat)
  /-- `close_idle` at a slot, up to `try_lock`. -/
  | findIdle (index now : Nat)
  | closeIdle (index : Nat)
  /-- The process ends, and the volume is opened again. -/
  | restart
  /-- The machine goes down, and the volume is opened again. Nothing syncs the directory, so that
  files created since it came up may be gone. -/
  | crash (gone : Nat → Bool) (lens : Nat → Nat) (torn : DataFiles)

namespace DataFileCache

/-- `with_capacity`, over the files that are there. -/
def withCapacity (config : DataFileCacheConfig) (files : Nat → Option (DiskFile UInt8)) :
    DataFileCache where
  readSem := max config.maxReaders 1
  writeSem := max config.maxWriters 1
  slots := List.replicate config.dataFiles .new
  files := files
  calls := .empty
  idle := []
  history := []

/-- The call returns, if its caller still waits. -/
def ends (s : DataFileCache) (c : CacheCall) (result : Fs0Result Bytes) : DataFileCache :=
  { s with
    calls := s.calls.delete fun other => other.call == c.call
    history := if c.dropped then s.history else .returned c.call c.request result :: s.history }

/-- The call goes on with its file, if its caller still waits. -/
def hasFile (s : DataFileCache) (c : CacheCall) (file : OpenFile) : DataFileCache :=
  { s with
    calls :=
      if c.dropped then s.calls.delete fun other => other.call == c.call
      else s.calls.replace { c with stage := .waiting file } }

def call (s : DataFileCache) (request : CacheRequest) : DataFileCache :=
  let begun := { s with
    calls := s.calls.push (fun number => ⟨number, request, .opening, false⟩) fun _ => rfl
    history := .began (s.calls.seq + 1) request :: s.history }
  let index := request.index
  let dataFiles := s.slots.length
  if index < dataFiles then begun
  else
    begun.ends ⟨s.calls.seq + 1, request, .opening, false⟩ (.error (.invalidData
      s!"data file index {index} exceeds configured data files {dataFiles}"))

/-- The slot of a call that is about to lock it, when no other call holds the mutex. -/
def freeSlot (s : DataFileCache) (c : CacheCall) : Option DataFileSlot :=
  if c.stage = .opening then
    s.slots[c.request.index]?.filter fun slot => slot.locked.isNone
  else none

def reuse (s : DataFileCache) (c : CacheCall) : Option DataFileCache :=
  (s.freeSlot c).bind fun slot => slot.file.map fun file => s.hasFile c file

def openFile (s : DataFileCache) (c : CacheCall) (result : Except IoError Unit) :
    Option DataFileCache :=
  (s.freeSlot c).bind fun slot =>
    let file : OpenFile := ⟨c.request.index⟩
    match slot.file, result with
    | some _, _ => none
    | none, .error err => some (s.ends c (.error (ioError err)))
    | none, .ok () =>
        if c.request.writes then
          let existing := (s.files file.index).getD (.created 0)
          some { s with
            files := Function.update s.files file.index (some existing)
            slots := s.slots.modify file.index fun slot => { slot with locked := some c.call }
            calls := s.calls.replace { c with stage := .opened file } }
        else if (s.files file.index).isSome then
          some (hasFile
            { s with
              slots := s.slots.modify file.index fun slot => { slot with file := some file } }
            c file)
        else none

def preallocate (s : DataFileCache) (c : CacheCall) (result : Except IoError Unit) :
    Option DataFileCache :=
  match c.stage, result with
  | .opened file, .error err =>
      some (ends
        { s with slots := s.slots.modify file.index fun slot => { slot with locked := none } }
        c (.error (ioError err)))
  | .opened file, .ok () =>
      some (hasFile
        { s with
          files := Function.update s.files file.index
            ((s.files file.index).map fun f => f.grow volumeDefaultDataFileSize)
          slots := s.slots.modify file.index fun slot =>
            { slot with file := some file, locked := none } }
        c file)
  | _, _ => none

/-- The permits that are left for writes, or for reads. -/
def permits (s : DataFileCache) (writes : Bool) : Nat :=
  if writes then s.writeSem else s.readSem

def setPermits (s : DataFileCache) (writes : Bool) (permits : Nat) : DataFileCache :=
  if writes then { s with writeSem := permits } else { s with readSem := permits }

def acquire (s : DataFileCache) (c : CacheCall) (now : Nat) : Option DataFileCache :=
  match c.stage with
  | .waiting file =>
      let writes := c.request.writes
      if 0 < s.permits writes then
        some { s.setPermits writes (s.permits writes - 1) with
          slots := s.slots.modify file.index fun slot => { slot with lastAccessMs := now }
          calls := s.calls.replace { c with stage := .transferring file [] } }
      else none
  | _ => none

/-- A transfer is over, and its permit is given back. -/
def endTransfer (s : DataFileCache) (c : CacheCall) (result : Fs0Result Bytes) : DataFileCache :=
  let writes := c.request.writes
  (s.setPermits writes (s.permits writes + 1)).ends c result

def transfer (s : DataFileCache) (c : CacheCall) (count : Nat) : Option DataFileCache :=
  match c.stage with
  | .transferring file buf =>
      (s.files file.index).bind fun f =>
        match c.request with
        | .readAt _ offset len =>
            let start := offset + buf.length
            if 0 < count ∧ buf.length + count ≤ len ∧ start + count ≤ f.len then
              let read := slice f.values start count
              some { s with
                calls := s.calls.replace { c with stage := .transferring file (buf ++ read) } }
            else none
        | .writeAt _ offset bytes =>
            if 0 < count ∧ buf.length + count ≤ bytes.length then
              let written := (bytes.drop buf.length).take count
              some { s with
                files := Function.update s.files file.index
                  (some (f.write (offset + buf.length) written))
                calls := s.calls.replace { c with stage := .transferring file (buf ++ written) } }
            else none
  | _ => none

/-- A read stops at the end of the file. -/
def transferStops (s : DataFileCache) (c : CacheCall) : Option DataFileCache :=
  match c.stage with
  | .transferring file buf =>
      if buf.length < c.request.size then
        match c.request with
        | .readAt _ offset _ =>
            (s.files file.index).bind fun f =>
              if f.len ≤ offset + buf.length then
                some (s.endTransfer c (.error (ioError IoPlatform.failedToFill)))
              else none
        | .writeAt _ _ _ => some (s.endTransfer c (.error (ioError IoPlatform.failedToWrite)))
      else none
  | _ => none

def transferFails (s : DataFileCache) (c : CacheCall) (err : IoError) : Option DataFileCache :=
  match c.stage with
  | .transferring _ buf =>
      if buf.length < c.request.size then some (s.endTransfer c (.error (ioError err))) else none
  | _ => none

def endRead (s : DataFileCache) (c : CacheCall) : Option DataFileCache :=
  match c.stage, c.request with
  | .transferring _ buf, .readAt _ _ len =>
      if buf.length = len then some (s.endTransfer c (.ok buf)) else none
  | _, _ => none

def syncData (s : DataFileCache) (c : CacheCall) (result : Except IoError Unit) :
    Option DataFileCache :=
  match c.stage, c.request with
  | .transferring file buf, .writeAt _ _ bytes =>
      if buf.length = bytes.length then
        match result with
        | .ok () =>
            some (endTransfer
              { s with
                files := Function.update s.files file.index
                  ((s.files file.index).map DiskFile.sync) }
              c (.ok []))
        | .error err => some (s.endTransfer c (.error (ioError err)))
      else none
  | _, _ => none

def drop (s : DataFileCache) (c : CacheCall) : Option DataFileCache :=
  match c.stage, c.dropped with
  | .waiting _, _ => some { s with calls := s.calls.delete fun other => other.call == c.call }
  | _, false => some { s with calls := s.calls.replace { c with dropped := true } }
  | _, true => none

def findIdle (s : DataFileCache) (index now : Nat) : Option DataFileCache :=
  s.slots[index]?.bind fun slot =>
    if slot.lastAccessMs ≠ 0 ∧ volumeDataFileIdleTtlMs < now - slot.lastAccessMs then
      some { s with idle := index :: s.idle }
    else none

/-- `try_lock`, and the file is closed unless another call holds the mutex. -/
def closeIdle (s : DataFileCache) (index : Nat) : Option DataFileCache :=
  if index ∈ s.idle then
    some { s with
      idle := s.idle.erase index
      slots := s.slots.modify index fun slot =>
        if slot.locked.isNone then { slot with file := none } else slot }
  else none

/-- The volume is opened again, over these files. -/
def reopened (config : DataFileCacheConfig) (s : DataFileCache)
    (files : Nat → Option (DiskFile UInt8)) : DataFileCache :=
  { withCapacity config files with
    calls := s.calls.delete fun _ => true
    history := s.history }

/-- What a crash leaves of the files. -/
def crashedFiles (s : DataFileCache) (gone : Nat → Bool) (lens : Nat → Nat) (torn : DataFiles)
    (index : Nat) : Option (DiskFile UInt8) :=
  (s.files index).bind fun f =>
    if gone index ∧ ¬ f.linked then none else some (f.crashed (lens index) (torn index))

/-- A step of a call that is under way. -/
def callStep (s : DataFileCache) (number : Nat) (f : CacheCall → Option DataFileCache) :
    Option DataFileCache :=
  (s.calls.find? number).bind f

def step (config : DataFileCacheConfig) (s : DataFileCache) : CacheEvent → Option DataFileCache
  | .call request => some (s.call request)
  | .reuse number => s.callStep number fun c => s.reuse c
  | .openFile number result => s.callStep number fun c => s.openFile c result
  | .preallocate number result => s.callStep number fun c => s.preallocate c result
  | .acquire number now => s.callStep number fun c => s.acquire c now
  | .transfer number count => s.callStep number fun c => s.transfer c count
  | .transferStops number => s.callStep number fun c => s.transferStops c
  | .transferFails number err => s.callStep number fun c => s.transferFails c err
  | .endRead number => s.callStep number fun c => s.endRead c
  | .syncData number result => s.callStep number fun c => s.syncData c result
  | .drop number => s.callStep number fun c => s.drop c
  | .findIdle index now => s.findIdle index now
  | .closeIdle index => s.closeIdle index
  | .restart => some (s.reopened config s.files)
  | .crash gone lens torn => some (s.reopened config (s.crashedFiles gone lens torn))

end DataFileCache

/-- The data file cache of a volume, over whatever files its root holds at first. -/
def dataFileCache (config : DataFileCacheConfig) : System DataFileCache CacheEvent where
  Init s := ∃ files, s = .withCapacity config files
  step := DataFileCache.step config

/-! ## Steps -/

namespace DataFileCache

variable {config : DataFileCacheConfig} {s s' : DataFileCache} {e : CacheEvent}

/-- What an event does. The ends of a transfer are one kind of step, but for a sync. -/
inductive CacheStep (config : DataFileCacheConfig) (s : DataFileCache) :
    CacheEvent → DataFileCache → Prop where
  | begins (request : CacheRequest) (below : request.index < s.slots.length) :
      CacheStep config s (.call request)
        { s with
          calls := s.calls.push (fun number => ⟨number, request, .opening, false⟩) fun _ => rfl
          history := .began (s.calls.seq + 1) request :: s.history }
  | refuses (request : CacheRequest) (err : Fs0Error) :
      CacheStep config s (.call request)
        { s with
          calls := (s.calls.push (fun number => ⟨number, request, .opening, false⟩)
            fun _ => rfl).delete fun other => other.call == s.calls.seq + 1
          history := .returned (s.calls.seq + 1) request (.error err) ::
            .began (s.calls.seq + 1) request :: s.history }
  | reuses (c : CacheCall) (slot : DataFileSlot) (file : OpenFile) (member : c ∈ s.calls.rows)
      (here : c.stage = .opening) (found : s.slots[c.request.index]? = some slot)
      (cached : slot.file = some file) : CacheStep config s (.reuse c.call) (s.hasFile c file)
  | openFails (c : CacheCall) (err : IoError) (member : c ∈ s.calls.rows)
      (here : c.stage = .opening) :
      CacheStep config s (.openFile c.call (.error err)) (s.ends c (.error (ioError err)))
  | opensToWrite (c : CacheCall) (member : c ∈ s.calls.rows) (here : c.stage = .opening)
      (writes : c.request.writes = true) :
      CacheStep config s (.openFile c.call (.ok ()))
        { s with
          files := Function.update s.files c.request.index
            (some ((s.files c.request.index).getD (.created 0)))
          slots := s.slots.modify c.request.index fun slot => { slot with locked := some c.call }
          calls := s.calls.replace { c with stage := .opened ⟨c.request.index⟩ } }
  | opensToRead (c : CacheCall) (member : c ∈ s.calls.rows) (here : c.stage = .opening)
      (there : (s.files c.request.index).isSome) :
      CacheStep config s (.openFile c.call (.ok ()))
        (hasFile
          { s with
            slots := s.slots.modify c.request.index fun slot =>
              { slot with file := some ⟨c.request.index⟩ } }
          c ⟨c.request.index⟩)
  | preallocates (c : CacheCall) (file : OpenFile) (member : c ∈ s.calls.rows)
      (here : c.stage = .opened file) :
      CacheStep config s (.preallocate c.call (.ok ()))
        (hasFile
          { s with
            files := Function.update s.files file.index
              ((s.files file.index).map fun f => f.grow volumeDefaultDataFileSize)
            slots := s.slots.modify file.index fun slot =>
              { slot with file := some file, locked := none } }
          c file)
  | preallocateFails (c : CacheCall) (file : OpenFile) (err : IoError) (member : c ∈ s.calls.rows)
      (here : c.stage = .opened file) :
      CacheStep config s (.preallocate c.call (.error err))
        (ends
          { s with slots := s.slots.modify file.index fun slot => { slot with locked := none } }
          c (.error (ioError err)))
  | acquires (c : CacheCall) (file : OpenFile) (now : Nat) (member : c ∈ s.calls.rows)
      (here : c.stage = .waiting file) (left : 0 < s.permits c.request.writes) :
      CacheStep config s (.acquire c.call now)
        { s.setPermits c.request.writes (s.permits c.request.writes - 1) with
          slots := s.slots.modify file.index fun slot => { slot with lastAccessMs := now }
          calls := s.calls.replace { c with stage := .transferring file [] } }
  | reads (c : CacheCall) (file : OpenFile) (buf : Bytes) (index offset len count : Nat)
      (f : DiskFile UInt8) (member : c ∈ s.calls.rows) (here : c.stage = .transferring file buf)
      (isRead : c.request = .readAt index offset len) (found : s.files file.index = some f)
      (positive : 0 < count) (fits : buf.length + count ≤ len)
      (inside : offset + buf.length + count ≤ f.len) :
      CacheStep config s (.transfer c.call count)
        { s with
          calls := s.calls.replace { c with
            stage := .transferring file (buf ++ slice f.values (offset + buf.length) count) } }
  | writes (c : CacheCall) (file : OpenFile) (buf : Bytes) (index offset count : Nat)
      (bytes : Bytes) (f : DiskFile UInt8) (member : c ∈ s.calls.rows)
      (here : c.stage = .transferring file buf) (isWrite : c.request = .writeAt index offset bytes)
      (found : s.files file.index = some f) (positive : 0 < count)
      (fits : buf.length + count ≤ bytes.length) :
      CacheStep config s (.transfer c.call count)
        { s with
          files := Function.update s.files file.index
            (some (f.write (offset + buf.length) ((bytes.drop buf.length).take count)))
          calls := s.calls.replace { c with
            stage := .transferring file (buf ++ (bytes.drop buf.length).take count) } }
  | stops (c : CacheCall) (file : OpenFile) (buf : Bytes) (err : IoError)
      (member : c ∈ s.calls.rows) (here : c.stage = .transferring file buf)
      (atEnd : ∀ index offset len, c.request = .readAt index offset len →
        buf.length < len ∧ ∃ f, s.files file.index = some f ∧ f.len ≤ offset + buf.length) :
      CacheStep config s (.transferStops c.call) (s.endTransfer c (.error (ioError err)))
  | fails {e : CacheEvent} (c : CacheCall) (file : OpenFile) (buf : Bytes) (err : IoError)
      (member : c ∈ s.calls.rows) (here : c.stage = .transferring file buf)
      (of : e = .transferFails c.call err ∨ e = .syncData c.call (.error err)) :
      CacheStep config s e (s.endTransfer c (.error (ioError err)))
  | endsRead (c : CacheCall) (file : OpenFile) (buf : Bytes) (index offset len : Nat)
      (member : c ∈ s.calls.rows) (here : c.stage = .transferring file buf)
      (isRead : c.request = .readAt index offset len) (whole : buf.length = len) :
      CacheStep config s (.endRead c.call) (s.endTransfer c (.ok buf))
  | syncs (c : CacheCall) (file : OpenFile) (buf : Bytes) (index offset : Nat) (bytes : Bytes)
      (member : c ∈ s.calls.rows) (here : c.stage = .transferring file buf)
      (isWrite : c.request = .writeAt index offset bytes) (whole : buf.length = bytes.length) :
      CacheStep config s (.syncData c.call (.ok ()))
        (endTransfer
          { s with
            files := Function.update s.files file.index ((s.files file.index).map DiskFile.sync) }
          c (.ok []))
  | leaves (c : CacheCall) (file : OpenFile) (member : c ∈ s.calls.rows)
      (here : c.stage = .waiting file) :
      CacheStep config s (.drop c.call)
        { s with calls := s.calls.delete fun other => other.call == c.call }
  | drops (c : CacheCall) (member : c ∈ s.calls.rows) :
      CacheStep config s (.drop c.call)
        { s with calls := s.calls.replace { c with dropped := true } }
  | findsIdle (index now : Nat) :
      CacheStep config s (.findIdle index now) { s with idle := index :: s.idle }
  | closesIdle (index : Nat) :
      CacheStep config s (.closeIdle index)
        { s with
          idle := s.idle.erase index
          slots := s.slots.modify index fun slot =>
            if slot.locked.isNone then { slot with file := none } else slot }
  | restarts : CacheStep config s .restart (s.reopened config s.files)
  | crashes (gone : Nat → Bool) (lens : Nat → Nat) (torn : DataFiles) :
      CacheStep config s (.crash gone lens torn)
        (s.reopened config (s.crashedFiles gone lens torn))

theorem callStep_cases {number : Nat} {f : CacheCall → Option DataFileCache}
    (taken : s.callStep number f = some s') :
    ∃ c, c ∈ s.calls.rows ∧ c.call = number ∧ f c = some s' := by
  obtain ⟨c, found, taken⟩ := Option.bind_eq_some_iff.mp taken
  obtain ⟨member, isCall⟩ := Table.mem_of_find? found
  exact ⟨c, member, isCall, taken⟩

theorem freeSlot_eq_some {c : CacheCall} {slot : DataFileSlot} :
    s.freeSlot c = some slot ↔ c.stage = .opening ∧ s.slots[c.request.index]? = some slot ∧
      slot.locked = none := by
  unfold freeSlot
  by_cases here : c.stage = .opening
  · rw [if_pos here, Option.filter_eq_some_iff, Option.isNone_iff_eq_none]
    exact ⟨fun both => ⟨here, both⟩, fun all => all.2⟩
  · rw [if_neg here]
    exact ⟨fun impossible => (by cases impossible), fun all => absurd all.1 here⟩

theorem step_cases (taken : (dataFileCache config).step s e = some s') :
    CacheStep config s e s' := by
  cases e with
  | call request =>
      obtain rfl := Option.some.inj taken
      by_cases below : request.index < s.slots.length
      · rw [call, if_pos below]
        exact .begins request below
      · rw [call, if_neg below]
        exact .refuses request _
  | reuse number =>
      obtain ⟨c, member, rfl, ran⟩ := callStep_cases taken
      obtain ⟨slot, free, ran⟩ := Option.bind_eq_some_iff.mp ran
      obtain ⟨file, cached, rfl⟩ := Option.map_eq_some_iff.mp ran
      obtain ⟨here, found, -⟩ := freeSlot_eq_some.mp free
      exact .reuses c slot file member here found cached
  | openFile number result =>
      obtain ⟨c, member, rfl, ran⟩ := callStep_cases taken
      obtain ⟨slot, free, ran⟩ := Option.bind_eq_some_iff.mp ran
      obtain ⟨here, found, -⟩ := freeSlot_eq_some.mp free
      dsimp only at ran
      split at ran
      · cases ran
      · obtain rfl := Option.some.inj ran
        exact .openFails c _ member here
      · split at ran
        · next writes =>
          obtain rfl := Option.some.inj ran
          exact .opensToWrite c member here writes
        · split at ran
          · next there =>
            obtain rfl := Option.some.inj ran
            exact .opensToRead c member here there
          · cases ran
  | preallocate number result =>
      obtain ⟨c, member, rfl, ran⟩ := callStep_cases taken
      unfold preallocate at ran
      split at ran
      · next file err here =>
        obtain rfl := Option.some.inj ran
        exact .preallocateFails c file err member here
      · next file here =>
        obtain rfl := Option.some.inj ran
        exact .preallocates c file member here
      · cases ran
  | acquire number now =>
      obtain ⟨c, member, rfl, ran⟩ := callStep_cases taken
      unfold acquire at ran
      split at ran
      · next file here =>
        dsimp only at ran
        split at ran
        · next left =>
          obtain rfl := Option.some.inj ran
          exact .acquires c file now member here left
        · cases ran
      · cases ran
  | transfer number count =>
      obtain ⟨c, member, rfl, ran⟩ := callStep_cases taken
      unfold transfer at ran
      split at ran
      · next file buf here =>
        obtain ⟨f, found, ran⟩ := Option.bind_eq_some_iff.mp ran
        split at ran
        · next index offset len isRead =>
          dsimp only at ran
          split at ran
          · next bounds =>
            obtain rfl := Option.some.inj ran
            exact .reads c file buf index offset len count f member here isRead found bounds.1
              bounds.2.1 bounds.2.2
          · cases ran
        · next index offset bytes isWrite =>
          dsimp only at ran
          split at ran
          · next bounds =>
            obtain rfl := Option.some.inj ran
            exact .writes c file buf index offset count bytes f member here isWrite found bounds.1
              bounds.2
          · cases ran
      · cases ran
  | transferStops number =>
      obtain ⟨c, member, rfl, ran⟩ := callStep_cases taken
      unfold transferStops at ran
      split at ran
      · next file buf here =>
        split at ran
        · next short =>
          split at ran
          · next index offset len isRead =>
            obtain ⟨f, found, ran⟩ := Option.bind_eq_some_iff.mp ran
            split at ran
            · next atEnd =>
              obtain rfl := Option.some.inj ran
              refine .stops c file buf _ member here fun index' offset' len' same => ?_
              cases isRead.symm.trans same
              rw [isRead] at short
              exact ⟨short, f, found, atEnd⟩
            · cases ran
          · next index offset bytes isWrite =>
            obtain rfl := Option.some.inj ran
            refine .stops c file buf _ member here fun index' offset' len' same => ?_
            cases isWrite.symm.trans same
        · cases ran
      · cases ran
  | transferFails number err =>
      obtain ⟨c, member, rfl, ran⟩ := callStep_cases taken
      unfold transferFails at ran
      split at ran
      · next file buf here =>
        split at ran
        · obtain rfl := Option.some.inj ran
          exact .fails c file buf err member here (.inl rfl)
        · cases ran
      · cases ran
  | endRead number =>
      obtain ⟨c, member, rfl, ran⟩ := callStep_cases taken
      unfold endRead at ran
      split at ran
      · next file buf index offset len here isRead =>
        split at ran
        · next whole =>
          obtain rfl := Option.some.inj ran
          exact .endsRead c file buf index offset len member here isRead whole
        · cases ran
      · cases ran
  | syncData number result =>
      obtain ⟨c, member, rfl, ran⟩ := callStep_cases taken
      unfold syncData at ran
      split at ran
      · next file buf index offset bytes here isWrite =>
        split at ran
        · next whole =>
          split at ran
          · obtain rfl := Option.some.inj ran
            exact .syncs c file buf index offset bytes member here isWrite whole
          · next err =>
            obtain rfl := Option.some.inj ran
            exact .fails c file buf err member here (.inr rfl)
        · cases ran
      · cases ran
  | drop number =>
      obtain ⟨c, member, rfl, ran⟩ := callStep_cases taken
      unfold DataFileCache.drop at ran
      split at ran
      · next file here =>
        obtain rfl := Option.some.inj ran
        exact .leaves c file member here
      · obtain rfl := Option.some.inj ran
        exact .drops c member
      · cases ran
  | findIdle index now =>
      obtain ⟨slot, found, taken⟩ := Option.bind_eq_some_iff.mp taken
      split at taken
      · obtain rfl := Option.some.inj taken
        exact .findsIdle index now
      · cases taken
  | closeIdle index =>
      simp only [dataFileCache, step, closeIdle] at taken
      split at taken
      · obtain rfl := Option.some.inj taken
        exact .closesIdle index
      · cases taken
  | restart =>
      obtain rfl := Option.some.inj taken
      exact .restarts
  | crash gone lens torn =>
      obtain rfl := Option.some.inj taken
      exact .crashes gone lens torn

/-! ## History -/

/-- Calls are numbered in the order in which they begin, and return at most once. -/
structure Known (calls : SeqTable CacheCall.call) (history : List CacheRecord) : Prop where
  began : ∀ c ∈ calls.rows, .began c.call c.request ∈ history
  numbered : ∀ number request, .began number request ∈ history → number ≤ calls.seq
  once : ∀ number request request', .began number request ∈ history →
    .began number request' ∈ history → request = request'
  returned : ∀ number request result, .returned number request result ∈ history →
    .began number request ∈ history ∧ ∀ c ∈ calls.rows, c.call ≠ number

variable {calls calls' : SeqTable CacheCall.call} {history : List CacheRecord}

theorem Known.of_calls (known : Known calls history) (seq : calls'.seq = calls.seq)
    (from' : ∀ x ∈ calls'.rows, ∃ c ∈ calls.rows, c.call = x.call ∧ c.request = x.request) :
    Known calls' history where
  began x member := by
    obtain ⟨c, among, isCall, isRequest⟩ := from' x member
    rw [← isCall, ← isRequest]
    exact known.began c among
  numbered number request begun := seq ▸ known.numbered number request begun
  once := known.once
  returned number request result ended := by
    refine ⟨(known.returned number request result ended).1, fun x member => ?_⟩
    obtain ⟨c, among, isCall, -⟩ := from' x member
    rw [← isCall]
    exact (known.returned number request result ended).2 c among

theorem Known.delete (known : Known calls history) (gone : CacheCall → Bool) :
    Known (calls.delete gone) history :=
  known.of_calls rfl fun x member => ⟨x, (SeqTable.mem_delete.mp member).1, rfl, rfl⟩

theorem Known.replace (known : Known calls history) {c c' : CacheCall} (member : c ∈ calls.rows)
    (isCall : c.call = c'.call) (isRequest : c.request = c'.request) :
    Known (calls.replace c') history := by
  refine known.of_calls rfl fun x among => ?_
  rcases SeqTable.mem_replace among with rfl | ⟨old, -⟩
  · exact ⟨c, member, isCall, isRequest⟩
  · exact ⟨x, old, rfl, rfl⟩

theorem Known.push (known : Known calls history) (request : CacheRequest) :
    Known (calls.push (fun number => ⟨number, request, .opening, false⟩) fun _ => rfl)
      (.began (calls.seq + 1) request :: history) where
  began x member := by
    rcases mem_appended.mp member with old | rfl
    · exact List.mem_cons_of_mem _ (known.began x old)
    · exact List.mem_cons_self
  numbered number request' begun := by
    rcases List.mem_cons.mp begun with same | old
    · cases same
      exact Nat.le_refl _
    · exact Nat.le_succ_of_le (known.numbered number request' old)
  once number left right isLeft isRight := by
    rcases List.mem_cons.mp isLeft with same | old <;>
      rcases List.mem_cons.mp isRight with same' | old'
    · cases same
      cases same'
      rfl
    · cases same
      exact absurd (known.numbered _ _ old') (Nat.not_succ_le_self _)
    · cases same'
      exact absurd (known.numbered _ _ old) (Nat.not_succ_le_self _)
    · exact known.once number left right old old'
  returned number request' result ended := by
    rcases List.mem_cons.mp ended with same | old
    · cases same
    · obtain ⟨begun, gone⟩ := known.returned number request' result old
      refine ⟨List.mem_cons_of_mem _ begun, fun x member => ?_⟩
      rcases mem_appended.mp member with among | rfl
      · exact gone x among
      · intro same
        rw [← same] at begun
        exact absurd (known.numbered _ _ begun) (Nat.not_succ_le_self _)

/-- A call that returns is over. -/
theorem Known.ends (known : Known calls history) {c : CacheCall} (member : c ∈ calls.rows)
    (result : Fs0Result Bytes) :
    Known (calls.delete fun other => other.call == c.call)
      (if c.dropped then history else .returned c.call c.request result :: history) := by
  have deleted := known.delete fun other => other.call == c.call
  by_cases dropped : c.dropped
  · rw [if_pos dropped]
    exact deleted
  · rw [if_neg dropped]
    constructor
    case began => exact fun x among => List.mem_cons_of_mem _ (deleted.began x among)
    case numbered =>
      intro number request begun
      rcases List.mem_cons.mp begun with same | old
      · cases same
      · exact deleted.numbered number request old
    case once =>
      intro number left right isLeft isRight
      rcases List.mem_cons.mp isLeft with same | old
      · cases same
      rcases List.mem_cons.mp isRight with same | old'
      · cases same
      exact known.once number left right old old'
    case returned =>
      intro number request result' ended
      rcases List.mem_cons.mp ended with same | old
      · cases same
        refine ⟨List.mem_cons_of_mem _ (known.began c member), fun x among => ?_⟩
        simpa using (SeqTable.mem_delete.mp among).2
      · obtain ⟨begun, gone⟩ := deleted.returned number request result' old
        exact ⟨List.mem_cons_of_mem _ begun, gone⟩

theorem Known.hasFile (known : Known s.calls s.history) {c : CacheCall}
    (member : c ∈ s.calls.rows) (file : OpenFile) :
    Known (s.hasFile c file).calls (s.hasFile c file).history := by
  by_cases dropped : c.dropped
  · have isCalls : (s.hasFile c file).calls =
        s.calls.delete fun other => other.call == c.call := if_pos dropped
    rw [isCalls]
    exact known.delete _
  · have isCalls : (s.hasFile c file).calls =
        s.calls.replace { c with stage := .waiting file } := if_neg dropped
    rw [isCalls]
    exact known.replace member rfl rfl

theorem setPermits_eq (s : DataFileCache) (writes : Bool) (permits : Nat) :
    ∃ readSem writeSem, s.setPermits writes permits =
      { s with readSem := readSem, writeSem := writeSem } := by
  cases writes with
  | false => exact ⟨permits, s.writeSem, rfl⟩
  | true => exact ⟨s.readSem, permits, rfl⟩

@[simp] theorem endTransfer_files (s : DataFileCache) (c : CacheCall) (result : Fs0Result Bytes) :
    (s.endTransfer c result).files = s.files := by
  obtain ⟨readSem, writeSem, isState⟩ :=
    setPermits_eq s c.request.writes (s.permits c.request.writes + 1)
  rw [DataFileCache.endTransfer, isState]
  rfl

@[simp] theorem endTransfer_slots (s : DataFileCache) (c : CacheCall) (result : Fs0Result Bytes) :
    (s.endTransfer c result).slots = s.slots := by
  obtain ⟨readSem, writeSem, isState⟩ :=
    setPermits_eq s c.request.writes (s.permits c.request.writes + 1)
  rw [DataFileCache.endTransfer, isState]
  rfl

@[simp] theorem endTransfer_calls (s : DataFileCache) (c : CacheCall) (result : Fs0Result Bytes) :
    (s.endTransfer c result).calls = s.calls.delete fun other => other.call == c.call := by
  obtain ⟨readSem, writeSem, isState⟩ :=
    setPermits_eq s c.request.writes (s.permits c.request.writes + 1)
  rw [DataFileCache.endTransfer, isState]
  rfl

@[simp] theorem endTransfer_history (s : DataFileCache) (c : CacheCall)
    (result : Fs0Result Bytes) :
    (s.endTransfer c result).history =
      if c.dropped then s.history else .returned c.call c.request result :: s.history := by
  obtain ⟨readSem, writeSem, isState⟩ :=
    setPermits_eq s c.request.writes (s.permits c.request.writes + 1)
  rw [DataFileCache.endTransfer, isState]
  rfl

theorem Known.endTransfer (known : Known s.calls s.history) {c : CacheCall}
    (member : c ∈ s.calls.rows) (result : Fs0Result Bytes) :
    Known (s.endTransfer c result).calls (s.endTransfer c result).history := by
  rw [endTransfer_calls, endTransfer_history]
  exact known.ends member result

theorem known_step (known : Known s.calls s.history) (step : CacheStep config s e s') :
    Known s'.calls s'.history := by
  cases step with
  | begins request below => exact known.push request
  | refuses request err =>
      exact (known.push request).ends (mem_appended.mpr (.inr rfl)) (.error err)
  | reuses c slot file member here found cached => exact known.hasFile member file
  | openFails c err member here => exact known.ends member _
  | opensToWrite c member here writes => exact known.replace member rfl rfl
  | opensToRead c member here there =>
      exact Known.hasFile known member _
  | preallocates c file member here => exact Known.hasFile known member file
  | preallocateFails c file err member here => exact known.ends member _
  | acquires c file now member here left =>
      obtain ⟨readSem, writeSem, isState⟩ :=
        setPermits_eq s c.request.writes (s.permits c.request.writes - 1)
      rw [isState]
      exact known.replace member rfl rfl
  | reads c file buf index offset len count f member here isRead found positive fits inside =>
      exact known.replace member rfl rfl
  | writes c file buf index offset count bytes f member here isWrite found positive fits =>
      exact known.replace member rfl rfl
  | stops c file buf err member here atEnd => exact known.endTransfer member _
  | fails c file buf err member here of => exact known.endTransfer member _
  | endsRead c file buf index offset len member here isRead whole =>
      exact known.endTransfer member _
  | syncs c file buf index offset bytes member here isWrite whole =>
      apply Known.endTransfer
      · exact known
      · exact member
  | leaves c file member here => exact known.delete _
  | drops c member => exact known.replace member rfl rfl
  | findsIdle index now => exact known
  | closesIdle index => exact known
  | restarts => exact known.delete _
  | crashes gone lens torn => exact known.delete _

/-! ## Open files -/

/-- What was transferred of a buffer. -/
def Partly : CacheRequest → Bytes → Prop
  | .readAt _ _ len, buf => buf.length ≤ len
  | .writeAt _ _ bytes, buf => buf <+: bytes

/-- An open file is the one the call asked for, and is there. -/
structure Opened (files : Nat → Option (DiskFile UInt8)) (index : Nat) (file : OpenFile) :
    Prop where
  index_eq : file.index = index
  there : (files index).isSome

/-- What the stage of a call knows. -/
def Fits (files : Nat → Option (DiskFile UInt8)) (c : CacheCall) : Prop :=
  match c.stage with
  | .opening => True
  | .opened file => Opened files c.request.index file
  | .waiting file => Opened files c.request.index file
  | .transferring file buf => Opened files c.request.index file ∧ Partly c.request buf

/-- The open files of the slots and of the calls are those of their index. -/
structure Handles (slots : List DataFileSlot) (files : Nat → Option (DiskFile UInt8))
    (calls : SeqTable CacheCall.call) : Prop where
  cached : ∀ index slot file, slots[index]? = some slot → slot.file = some file →
    Opened files index file
  stages : ∀ c ∈ calls.rows, Fits files c

variable {slots slots' : List DataFileSlot} {files files' : Nat → Option (DiskFile UInt8)}

/-- A file that is there stays there. -/
def Stays (files files' : Nat → Option (DiskFile UInt8)) : Prop :=
  ∀ index, (files index).isSome → (files' index).isSome

theorem stays_update (index : Nat) (file : Option (DiskFile UInt8))
    (there : (files index).isSome → file.isSome) :
    Stays files (Function.update files index file) := by
  intro other known
  by_cases same : other = index
  · subst same
    rw [Function.update_self]
    exact there known
  · rw [Function.update_of_ne same]
    exact known

theorem Opened.mono {index : Nat} {file : OpenFile} (opened : Opened files index file)
    (stays : Stays files files') : Opened files' index file :=
  ⟨opened.index_eq, stays index opened.there⟩

theorem Fits.mono {c : CacheCall} (fits : Fits files c) (stays : Stays files files') :
    Fits files' c := by
  unfold Fits at fits ⊢
  cases here : c.stage with
  | opening => trivial
  | opened file =>
      rw [here] at fits
      exact Opened.mono fits stays
  | waiting file =>
      rw [here] at fits
      exact Opened.mono fits stays
  | transferring file buf =>
      rw [here] at fits
      exact ⟨fits.1.mono stays, fits.2⟩

theorem Handles.stays (handles : Handles slots files calls) (stays : Stays files files') :
    Handles slots files' calls where
  cached index slot file found cached := (handles.cached index slot file found cached).mono stays
  stages c member := (handles.stages c member).mono stays

/-- A slot is modified, and its file is as before, gone, or one of its index. -/
theorem Handles.modify (handles : Handles slots files calls) (index : Nat)
    (g : DataFileSlot → DataFileSlot)
    (keeps : ∀ slot file, slots[index]? = some slot → (g slot).file = some file →
      slot.file = some file ∨ Opened files index file) :
    Handles (slots.modify index g) files calls where
  cached other slot file found cached := by
    rw [List.getElem?_modify] at found
    obtain ⟨old, isOld, rfl⟩ := Option.map_eq_some_iff.mp found
    by_cases same : index = other
    · subst same
      rw [if_pos rfl] at cached
      rcases keeps old file isOld cached with before | opened
      · exact handles.cached index old file isOld before
      · exact opened
    · rw [if_neg same] at cached
      exact handles.cached other old file isOld cached
  stages := handles.stages

theorem Handles.delete (handles : Handles slots files calls) (gone : CacheCall → Bool) :
    Handles slots files (calls.delete gone) where
  cached := handles.cached
  stages c member := handles.stages c (SeqTable.mem_delete.mp member).1

theorem Handles.replace (handles : Handles slots files calls) {c : CacheCall}
    (fits : Fits files c) : Handles slots files (calls.replace c) where
  cached := handles.cached
  stages x member := by
    rcases SeqTable.mem_replace member with rfl | ⟨old, -⟩
    · exact fits
    · exact handles.stages x old

theorem Handles.push (handles : Handles slots files calls) (request : CacheRequest) :
    Handles slots files
      (calls.push (fun number => ⟨number, request, .opening, false⟩) fun _ => rfl) where
  cached := handles.cached
  stages x member := by
    rcases mem_appended.mp member with old | rfl
    · exact handles.stages x old
    · trivial

theorem Handles.hasFile (handles : Handles s.slots s.files s.calls) {c : CacheCall}
    {file : OpenFile} (opened : Opened s.files c.request.index file) :
    Handles (s.hasFile c file).slots (s.hasFile c file).files (s.hasFile c file).calls := by
  by_cases dropped : c.dropped
  · have isCalls : (s.hasFile c file).calls =
        s.calls.delete fun other => other.call == c.call := if_pos dropped
    rw [isCalls]
    exact handles.delete _
  · have isCalls : (s.hasFile c file).calls =
        s.calls.replace { c with stage := .waiting file } := if_neg dropped
    rw [isCalls]
    exact handles.replace opened

theorem Handles.endTransfer (handles : Handles s.slots s.files s.calls) (c : CacheCall)
    (result : Fs0Result Bytes) :
    Handles (s.endTransfer c result).slots (s.endTransfer c result).files
      (s.endTransfer c result).calls := by
  obtain ⟨readSem, writeSem, isState⟩ :=
    setPermits_eq s c.request.writes (s.permits c.request.writes + 1)
  rw [DataFileCache.endTransfer, isState]
  exact handles.delete _

/-- A volume that is opened has no open file. -/
theorem handles_reopened (config : DataFileCacheConfig) (s : DataFileCache)
    (files : Nat → Option (DiskFile UInt8)) :
    Handles (s.reopened config files).slots (s.reopened config files).files
      (s.reopened config files).calls where
  cached index slot file found cached := by
    have isNew : slot = .new := List.eq_of_mem_replicate (List.mem_of_getElem? found)
    rw [isNew] at cached
    cases cached
  stages c member := by simpa using (SeqTable.mem_delete.mp member).2

theorem handles_step (handles : Handles s.slots s.files s.calls)
    (step : CacheStep config s e s') : Handles s'.slots s'.files s'.calls := by
  have known {c : CacheCall} (member : c ∈ s.calls.rows) := handles.stages c member
  cases step with
  | begins request below => exact handles.push request
  | refuses request err => exact (handles.push request).delete _
  | reuses c slot file member here found cached =>
      exact handles.hasFile (handles.cached _ slot file found cached)
  | openFails c err member here => exact handles.delete _
  | opensToWrite c member here writes =>
      have stays : Stays s.files (Function.update s.files c.request.index
          (some ((s.files c.request.index).getD (.created 0)))) := stays_update _ _ fun _ => rfl
      have opened : Fits (Function.update s.files c.request.index
          (some ((s.files c.request.index).getD (.created 0))))
            { c with stage := .opened ⟨c.request.index⟩ } := by
        refine ⟨rfl, ?_⟩
        rw [Function.update_self]
        rfl
      exact ((handles.stays stays).replace opened).modify _ _ fun slot file _ cached => .inl cached
  | opensToRead c member here there =>
      refine Handles.hasFile ?_ ⟨rfl, there⟩
      exact handles.modify _ _ fun slot file _ cached =>
        .inr (Option.some.inj cached ▸ ⟨rfl, there⟩)
  | preallocates c file member here =>
      have fits := known member
      rw [Fits, here] at fits
      have stays : Stays s.files (Function.update s.files file.index
          ((s.files file.index).map fun f => f.grow volumeDefaultDataFileSize)) :=
        stays_update _ _ fun there => by rwa [Option.isSome_map]
      refine Handles.hasFile ?_ (Opened.mono fits stays)
      refine (handles.stays stays).modify _ _ fun slot other _ cached => .inr ?_
      obtain rfl := Option.some.inj cached
      refine Opened.mono ⟨rfl, ?_⟩ stays
      rw [fits.index_eq]
      exact fits.there
  | preallocateFails c file err member here =>
      exact (handles.delete _).modify _ _ fun slot file _ cached => .inl cached
  | acquires c file now member here left =>
      obtain ⟨readSem, writeSem, isState⟩ :=
        setPermits_eq s c.request.writes (s.permits c.request.writes - 1)
      rw [isState]
      have fits := known member
      rw [Fits, here] at fits
      have started : Fits s.files { c with stage := .transferring file [] } := by
        refine ⟨fits, ?_⟩
        cases c.request with
        | readAt index offset len => exact Nat.zero_le _
        | writeAt index offset bytes => exact List.nil_prefix
      exact (handles.replace started).modify _ _ fun slot file _ cached => .inl cached
  | reads c file buf index offset len count f member here isRead found positive fits inside =>
      have known := known member
      rw [Fits, here] at known
      refine handles.replace ⟨known.1, ?_⟩
      dsimp only
      rw [isRead, Partly, List.length_append, slice_length]
      exact fits
  | writes c file buf index offset count bytes f member here isWrite found positive fits =>
      have known := known member
      rw [Fits, here, isWrite] at known
      have stays : Stays s.files (Function.update s.files file.index
          (some (f.write (offset + buf.length) ((bytes.drop buf.length).take count)))) :=
        stays_update _ _ fun _ => rfl
      refine (handles.stays stays).replace ⟨?_, ?_⟩
      · dsimp only
        rw [isWrite]
        exact known.1.mono stays
      · dsimp only
        rw [isWrite]
        obtain ⟨rest, rfl⟩ := known.2
        rw [List.drop_left]
        refine ⟨rest.drop count, ?_⟩
        rw [List.append_assoc, List.take_append_drop]
  | stops c file buf err member here atEnd => exact handles.endTransfer c _
  | fails c file buf err member here of => exact handles.endTransfer c _
  | endsRead c file buf index offset len member here isRead whole => exact handles.endTransfer c _
  | syncs c file buf index offset bytes member here isWrite whole =>
      refine Handles.endTransfer ?_ c _
      exact handles.stays (stays_update _ _ fun there => by rwa [Option.isSome_map])
  | leaves c file member here => exact handles.delete _
  | drops c member =>
      have fits : Fits s.files { c with dropped := true } := handles.stages c member
      exact handles.replace fits
  | findsIdle index now => exact handles
  | closesIdle index =>
      refine handles.modify _ _ fun slot file _ cached => .inl ?_
      split at cached
      · cases cached
      · exact cached
  | restarts => exact handles_reopened config s _
  | crashes gone lens torn => exact handles_reopened config s _

/-! ## Reachable states -/

theorem known_of_reachable (reachable : (dataFileCache config).Reachable s) :
    Known s.calls s.history := by
  refine reachable.invariant (fun s => Known s.calls s.history) ?_ ?_
  · rintro s ⟨files, rfl⟩
    constructor
    · exact fun c member => absurd member List.not_mem_nil
    · exact fun number request member => absurd member List.not_mem_nil
    · exact fun number request request' member => absurd member List.not_mem_nil
    · exact fun number request result member => absurd member List.not_mem_nil
  · intro s e s' known taken
    exact known_step known (step_cases taken)

theorem handles_of_reachable (reachable : (dataFileCache config).Reachable s) :
    Handles s.slots s.files s.calls := by
  refine reachable.invariant (fun s => Handles s.slots s.files s.calls) ?_ ?_
  · rintro s ⟨files, rfl⟩
    exact handles_reopened config (.withCapacity config files) files
  · intro s e s' handles taken
    exact handles_step handles (step_cases taken)

end DataFileCache

end Fs0
