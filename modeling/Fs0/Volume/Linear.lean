import Fs0.Volume.Sections

/-!
Contract: overlapping calls of `put_chunk` for one chunk id.

Owns:
- the calls run one after another, each with nothing in between;
- the steps after which overlapping calls no longer return what they would return
  alone, and that in runs without such steps they do.

Does not own: calls for other chunk ids, and writes that fail.
-/

set_option autoImplicit false

namespace Fs0

open Lib Fallible

/-! ## One call after another -/

/-- The arguments of a call of `put_chunk`. -/
structure PutArgs where
  rawLen : Nat
  bytes : Bytes
  now : Nat
deriving DecidableEq

namespace VolumeEvent

/-- The arguments of the call that an event starts. -/
def putArgs? : VolumeEvent → Option PutArgs
  | .putChunk _ rawLen bytes now => some ⟨rawLen, bytes, now⟩
  | _ => none

/-- An event of calls for one chunk id whose writes succeed. -/
def Puts (chunkId : HashId) : VolumeEvent → Prop
  | .putChunk other _ _ _ => other = chunkId
  | .write _ _ => True
  | .storeChunk _ => True
  | _ => False

end VolumeEvent

namespace Volume

/-- A call of `put_chunk` whose sections follow one another. -/
def putAlone (blake3 : Bytes → HashId) (chunkId : HashId) (put : PutArgs) : VolumeM ChunkMeta := do
  match ← putChunk blake3 put.now chunkId put.rawLen put.bytes with
  | .stored existing => pure existing
  | .reserved insert => storeChunk insert

/-- A database and what the calls on it returned, newest first. -/
structure Alone where
  db : VolumeDb
  returns : List VolumeReturn

def Alone.put (blake3 : Bytes → HashId) (chunkId : HashId) (s : Alone) (put : PutArgs) : Alone :=
  let result := putAlone blake3 chunkId put s.db
  ⟨endState result, .putChunk chunkId put.rawLen put.bytes (outcome result) :: s.returns⟩

/-- The calls for one chunk id have returned what they return one after another in some
order, and a call that succeeded returned the stored row, which has its own lengths and
hash. -/
def Linearized (blake3 : Bytes → HashId) (chunkId : HashId) (calls : List PutArgs)
    (before after : Volume) : Prop :=
  ∃ (returned : List VolumeReturn) (order : List PutArgs),
    after.returns = returned ++ before.returns ∧ order.Perm calls ∧
    returned.Perm (order.foldl (Alone.put blake3 chunkId) ⟨before.db, []⟩).returns ∧
    after.tables.chunks.find? chunkId =
      (order.foldl (Alone.put blake3 chunkId) ⟨before.db, []⟩).db.1.chunks.find? chunkId ∧
    ∀ rawLen bytes chunk, .putChunk chunkId rawLen bytes (.ok chunk) ∈ returned →
      after.tables.chunks.find? chunkId = some chunk ∧ SameChunk blake3 chunk rawLen bytes

/-! ## Overlapping calls -/

instance (known : VolumeMeta) (compressedLen now : Nat) :
    Decidable (HasRoom known compressedLen now) :=
  let stop := chunkOffset known.activeVolumeOffset compressedLen + compressedLen
  decidable_of_iff (stop < u64Modulus ∧ stop ≤ known.maxBytes ∧ stop ≤ i64Max ∧ now ≤ i64Max)
    ⟨fun ⟨fits, room, bound, nowFits⟩ => ⟨fits, room, bound, nowFits⟩,
      fun room => ⟨room.fits, room.room, room.bound, room.nowFits⟩⟩

instance (blake3 : Bytes → HashId) (known : ChunkMeta) (rawLen : Nat) (bytes : Bytes) :
    Decidable (SameChunk blake3 known rawLen bytes) :=
  inferInstanceAs (Decidable (_ ∧ _))

/-- The oldest call under way whose row can be inserted. -/
def pioneer (v : Volume) : Option PutCall :=
  v.puts.rows.find? fun put => put.insert.rawLen ≤ i64Max

/-- A call that finds the chunk missing while another one is about to insert it has the
same lengths and hash and room of its own, and the oldest of these calls inserts. -/
def Joins (blake3 : Bytes → HashId) (chunkId : HashId) (v : Volume) : VolumeEvent → Prop
  | .putChunk _ rawLen bytes now =>
      checkChunk rawLen bytes = .ok () → v.tables.chunks.find? chunkId = none →
        ∀ put ∈ v.pioneer, SameChunk blake3 put.insert rawLen bytes ∧
          HasRoom v.db.2 bytes.length now
  | .storeChunk call =>
      v.tables.chunks.find? chunkId = none → ∀ put ∈ v.puts.find? call,
        put.insert.rawLen ≤ i64Max → v.pioneer = some put
  | _ => True

instance (blake3 : Bytes → HashId) (chunkId : HashId) (v : Volume) (e : VolumeEvent) :
    Decidable (Joins blake3 chunkId v e) := by
  cases e <;> unfold Joins <;> infer_instance

/-! ## Simulation -/

variable {blake3 : Bytes → HashId} {chunkId : HashId} {v v' : Volume} {s : Alone}

/-- The row of the chunk, if no call that runs alone is cut short. -/
def expected (v : Volume) (chunkId : HashId) : Option ChunkMeta :=
  match v.tables.chunks.find? chunkId with
  | some row => some row
  | none => v.pioneer.map PutCall.insert

theorem expected_of_found {row : ChunkMeta} (found : v.tables.chunks.find? chunkId = some row) :
    v.expected chunkId = some row := by
  unfold expected
  rw [found]

theorem expected_of_absent (absent : v.tables.chunks.find? chunkId = none) :
    v.expected chunkId = v.pioneer.map PutCall.insert := by
  unfold expected
  rw [absent]

theorem expected_congr (chunks : v'.tables.chunks = v.tables.chunks)
    (pioneer : v'.pioneer.map PutCall.insert = v.pioneer.map PutCall.insert) :
    v'.expected chunkId = v.expected chunkId := by
  unfold expected
  rw [chunks, pioneer]

/-- What a call under way is about to return. -/
def awaited (db : VolumeDb) (put : PutCall) : VolumeReturn :=
  .putChunk put.insert.chunkId put.insert.rawLen put.bytes (outcome (storeChunk put.insert db))

theorem putAlone_of_stored {put : PutArgs} {existing : ChunkMeta} {db : VolumeDb}
    (ran : putChunk blake3 put.now chunkId put.rawLen put.bytes db = .ok (.stored existing) db) :
    putAlone blake3 chunkId put db = .ok existing db := by
  unfold putAlone
  rw [bind_of_ok ran]
  rfl

theorem putAlone_of_error {put : PutArgs} {err : Fs0Error} {db : VolumeDb}
    (ran : putChunk blake3 put.now chunkId put.rawLen put.bytes db = .error err db) :
    putAlone blake3 chunkId put db = .error err db := by
  unfold putAlone
  rw [bind_of_error ran]

theorem putAlone_of_reserved {put : PutArgs} {insert : ChunkMeta} {db db' : VolumeDb}
    (ran : putChunk blake3 put.now chunkId put.rawLen put.bytes db = .ok (.reserved insert) db') :
    putAlone blake3 chunkId put db = storeChunk insert db' := by
  unfold putAlone
  rw [bind_of_ok ran]

/-- The calls of a volume against the same calls run alone, in the order in which they
began. -/
structure Linked (chunkId : HashId) (base : List VolumeReturn) (v : Volume) (s : Alone) :
    Prop where
  puts : ∀ put ∈ v.puts.rows, put.insert.chunkId = chunkId ∧
    put.insert.volumeOffset ≤ i64Max ∧ put.insert.compressedLen ≤ i64Max
  row : s.db.1.chunks.find? chunkId = v.expected chunkId
  idle : v.expected chunkId = none →
    s.db.2 = v.db.2 ∧ s.db.1.volumeMeta = v.tables.volumeMeta
  returns : ∃ returned, v.returns = returned ++ base ∧
    (v.puts.rows.map (awaited s.db) ++ returned).Perm s.returns

namespace Linked

variable {base : List VolumeReturn}

theorem fits (linked : Linked chunkId base v s) {put : PutCall} (member : put ∈ v.puts.rows)
    (rawLen : put.insert.rawLen ≤ i64Max) : put.insert.Fits :=
  ⟨(linked.puts put member).2.1, rawLen, (linked.puts put member).2.2⟩

/-- While no row is expected, no call under way can insert one. -/
theorem not_fits (none : v.expected chunkId = none) {put : PutCall}
    (member : put ∈ v.puts.rows) : ¬ put.insert.Fits := by
  intro fits
  unfold expected at none
  split at none
  · cases none
  · have noPioneer := Option.map_eq_none_iff.mp none
    have late := List.find?_eq_none.mp noPioneer put member
    exact late (decide_eq_true fits.rawLen)

/-- What is awaited of a call depends on the expected row only. -/
theorem awaited_congr {db db' : VolumeDb} {put : PutCall}
    (agree : put.insert.Fits → ∃ row, db.1.chunks.find? put.insert.chunkId = some row ∧
      db'.1.chunks.find? put.insert.chunkId = some row) : awaited db put = awaited db' put := by
  unfold awaited
  by_cases fits : put.insert.Fits
  · obtain ⟨row, found, found'⟩ := agree fits
    rw [storeChunk_of_found fits found, storeChunk_of_found fits found']
    rfl
  · obtain ⟨err, failed⟩ := storeChunk_of_unfit fits
    rw [failed, failed]
    rfl

/-- A call that returns at once, with what it returns alone. -/
theorem of_returned (linked : Linked chunkId base v s) (r : VolumeReturn) :
    Linked chunkId base (v.returned r) ⟨s.db, r :: s.returns⟩ := by
  obtain ⟨returned, isReturns, perm⟩ := linked.returns
  refine ⟨linked.puts, linked.row, linked.idle, r :: returned, ?_, ?_⟩
  · exact congrArg (r :: ·) isReturns
  · exact List.perm_middle.trans (perm.cons r)

/-- The pioneer as a row. -/
theorem pioneer_insert (v : Volume) : v.pioneer.map PutCall.insert =
    (v.puts.rows.map PutCall.insert).find? fun chunk => chunk.rawLen ≤ i64Max := by
  unfold pioneer
  rw [List.find?_map]
  rfl

/-- A write changes nothing the calls are compared by. -/
theorem of_write (linked : Linked chunkId base v s) {put : PutCall} {count : Nat}
    (found : v.puts.find? put.call = some put) (files : DataFiles) :
    Linked chunkId base { v with
      files := files
      puts := v.puts.replace { put with written := put.written + count } } s := by
  obtain ⟨member, -⟩ := Table.mem_of_find? found
  let after : Volume := { v with
    files := files
    puts := v.puts.replace { put with written := put.written + count } }
  have inserts : after.puts.rows.map PutCall.insert = v.puts.rows.map PutCall.insert :=
    SeqTable.map_replace member rfl rfl
  have returns : after.puts.rows.map (awaited s.db) = v.puts.rows.map (awaited s.db) :=
    SeqTable.map_replace member rfl rfl
  have same : after.expected chunkId = v.expected chunkId :=
    expected_congr rfl (by rw [pioneer_insert, inserts, ← pioneer_insert])
  refine ⟨?_, linked.row.trans same.symm, fun none => linked.idle (same.symm.trans none), ?_⟩
  · intro other among
    have kept : other.insert ∈ v.puts.rows.map PutCall.insert :=
      inserts ▸ List.mem_map_of_mem among
    obtain ⟨old, oldMem, isInsert⟩ := List.mem_map.mp kept
    exact isInsert ▸ linked.puts old oldMem
  · obtain ⟨returned, isReturns, perm⟩ := linked.returns
    exact ⟨returned, isReturns, returns ▸ perm⟩

/-- A call that is over returns what was awaited of it. -/
theorem of_endPut (linked : Linked chunkId base v s) {put : PutCall} {db : VolumeDb}
    {inserted : List PutCall} {result : Fs0Result ChunkMeta}
    (found : v.puts.find? put.call = some put)
    (isResult : result = outcome (storeChunk put.insert s.db))
    (same : Volume.expected ({ v with db := db, inserted := inserted }.endPut put result) chunkId =
      v.expected chunkId)
    (known : v.expected chunkId = none → db = v.db) :
    Linked chunkId base ({ v with db := db, inserted := inserted }.endPut put result) s := by
  refine ⟨?_, linked.row.trans same.symm, ?_, ?_⟩
  · exact fun other among => linked.puts other (SeqTable.mem_delete.mp among).1
  · intro none
    rw [same] at none
    obtain rfl := known none
    exact linked.idle none
  · obtain ⟨returned, isReturns, perm⟩ := linked.returns
    refine ⟨.putChunk put.insert.chunkId put.insert.rawLen put.bytes result :: returned,
      congrArg (_ :: ·) isReturns, List.Perm.trans ?_ perm⟩
    have split := ((Table.perm_delete (Table.mem_of_find? found).1).map (awaited s.db))
    rw [isResult]
    refine List.perm_middle.trans ?_
    exact (split.symm.append_right returned : _)

/-- A call that does not insert leaves the pioneer. -/
theorem pioneer_endPut {put : PutCall} (found : v.puts.find? put.call = some put)
    (late : ¬ put.insert.rawLen ≤ i64Max) (result : Fs0Result ChunkMeta) :
    (v.endPut put result).pioneer = v.pioneer := by
  unfold pioneer
  have rows : (v.endPut put result).puts.rows =
      v.puts.rows.filter fun other => !(other.call == put.call) := rfl
  rw [rows, ← List.head?_filter, ← List.head?_filter, List.filter_filter]
  refine congrArg List.head? (List.filter_congr fun other among => ?_)
  by_cases isPut : other.call = put.call
  · obtain rfl := Table.eq_of_key_eq among (Table.mem_of_find? found).1 isPut
    simp [late]
  · simp [isPut]

theorem of_storeChunk (linked : Linked chunkId base v s) {call : Nat}
    (joins : Joins blake3 chunkId v (.storeChunk call))
    (taken : (volume blake3).step v (.storeChunk call) = some v') :
    Linked chunkId base v' s := by
  obtain ⟨put, found, ran⟩ := Option.bind_eq_some_iff.mp taken
  obtain ⟨member, rfl⟩ := Table.mem_of_find? found
  obtain ⟨isChunk, -⟩ := linked.puts put member
  split at ran
  next complete =>
    obtain rfl := Option.some.inj ran
    have outcome := storeChunk_outcome put.insert v.db
    generalize stored : storeChunk put.insert v.db = result at outcome
    cases outcome with
    | inserted chunks fits appended =>
        obtain ⟨-, fresh⟩ := Table.insert?_eq_some appended
        have absent : v.tables.chunks.find? chunkId = none :=
          isChunk ▸ Table.find?_eq_none.mpr fresh
        have row : chunks.find? chunkId = some put.insert :=
          isChunk ▸ Table.find?_of_insert? appended
        have expects : v.expected chunkId = some put.insert := by
          rw [expected_of_absent absent, joins absent put found fits.rawLen]
          rfl
        have stored : s.db.1.chunks.find? put.insert.chunkId = some put.insert := by
          rw [isChunk, linked.row, expects]
        refine linked.of_endPut found ?_ ?_ fun none => ?_
        · rw [storeChunk_of_found fits stored]
          rfl
        · rw [expects]
          exact expected_of_found row
        · rw [expects] at none
          cases none
    | known existing fits row =>
        have expects : v.expected chunkId = some existing :=
          expected_of_found (isChunk ▸ row)
        have stored : s.db.1.chunks.find? put.insert.chunkId = some existing := by
          rw [isChunk, linked.row, expects]
        refine linked.of_endPut found ?_ ?_ fun _ => rfl
        · rw [storeChunk_of_found fits stored]
          rfl
        · rw [expects]
          exact expected_of_found (isChunk ▸ row)
    | unfit err unfit =>
        have late : ¬ put.insert.rawLen ≤ i64Max := fun rawLen => unfit (linked.fits member rawLen)
        obtain ⟨failure, failed⟩ := storeChunk_of_unfit unfit
        refine linked.of_endPut found ?_ ?_ fun _ => rfl
        · rw [failed, ← stored, failed]
          rfl
        · exact expected_congr rfl (congrArg _ (pioneer_endPut found late (.error err)))
  · cases ran

/-- The row expected once a call has been reserved. -/
theorem expected_pushed {db : VolumeDb} (insert : ChunkMeta) (bytes : Bytes)
    (chunks : db.1.chunks = v.tables.chunks) (absent : v.tables.chunks.find? chunkId = none) :
    Volume.expected { v with
      db := db
      puts := v.puts.push (fun call => ⟨call, insert, bytes, 0⟩) fun _ => rfl } chunkId =
      (v.pioneer.map PutCall.insert).or (if insert.rawLen ≤ i64Max then some insert else none) := by
  let after : Volume := { v with
    db := db
    puts := v.puts.push (fun call => ⟨call, insert, bytes, 0⟩) fun _ => rfl }
  have missing : after.tables.chunks.find? chunkId = none := by
    rw [← absent, ← chunks]
    rfl
  have pushed : after.pioneer = v.pioneer.or
      ([⟨v.puts.seq + 1, insert, bytes, 0⟩].find? fun put : PutCall =>
        decide (put.insert.rawLen ≤ i64Max)) := List.find?_append
  rw [expected_of_absent missing, pushed]
  cases v.pioneer with
  | some put => rfl
  | none => by_cases fits : insert.rawLen ≤ i64Max <;> simp [fits]

/-- A call under way is added, and alone it has run to its end. -/
theorem of_pushed (linked : Linked chunkId base v s) {insert : ChunkMeta} {bytes : Bytes}
    {db : VolumeDb} {s' : Alone}
    (isChunk : insert.chunkId = chunkId ∧ insert.volumeOffset ≤ i64Max ∧
      insert.compressedLen ≤ i64Max)
    (row : s'.db.1.chunks.find? chunkId = Volume.expected { v with
      db := db
      puts := v.puts.push (fun call => ⟨call, insert, bytes, 0⟩) fun _ => rfl } chunkId)
    (idle : s'.db.1.chunks.find? chunkId = none → s'.db.2 = db.2 ∧
      s'.db.1.volumeMeta = db.1.volumeMeta)
    (others : ∀ put ∈ v.puts.rows, awaited s'.db put = awaited s.db put)
    (returns : s'.returns = .putChunk insert.chunkId insert.rawLen bytes
      (outcome (storeChunk insert s'.db)) :: s.returns) :
    Linked chunkId base { v with
      db := db
      puts := v.puts.push (fun call => ⟨call, insert, bytes, 0⟩) fun _ => rfl } s' := by
  refine ⟨?_, row, fun none => idle (row.trans none), ?_⟩
  · intro put member
    rcases mem_appended.mp member with old | rfl
    · exact linked.puts put old
    · exact isChunk
  · obtain ⟨returned, isReturns, perm⟩ := linked.returns
    refine ⟨returned, isReturns, ?_⟩
    rw [SeqTable.rows_push, List.map_append, List.map_congr_left others, returns,
      List.append_assoc]
    exact List.perm_middle.trans (perm.cons _)

theorem hasRoom_of_reserved {db db' : VolumeDb} {rawLen now : Nat} {bytes : Bytes}
    {insert : ChunkMeta} (reserved : Reserved blake3 db chunkId rawLen bytes now insert db') :
    HasRoom db.2 bytes.length now := by
  have offset : insert.volumeOffset = chunkOffset db.2.activeVolumeOffset bytes.length := by
    rw [reserved.insert_eq]
  exact ⟨offset ▸ reserved.fits, offset ▸ reserved.room, offset ▸ reserved.bound,
    reserved.nowFits⟩

/-- A call that is reserved while no row is expected is the first to insert one. -/
theorem of_reserved_idle (linked : Linked chunkId base v s) {rawLen now : Nat} {bytes : Bytes}
    {insert : ChunkMeta} {db : VolumeDb} (none : v.expected chunkId = none)
    (reserved : Reserved blake3 v.db chunkId rawLen bytes now insert db) :
    Linked chunkId base { v with
      db := db
      puts := v.puts.push (fun call => ⟨call, insert, bytes, 0⟩) fun _ => rfl }
      (s.put blake3 chunkId ⟨rawLen, bytes, now⟩) := by
  obtain ⟨known, isMeta⟩ := linked.idle none
  have absent : s.db.1.chunks.find? chunkId = Option.none := linked.row.trans none
  have insertEq := reserved.insert_eq
  have isChunk : insert.chunkId = chunkId := by rw [insertEq]
  have rawLenEq : insert.rawLen = rawLen := by rw [insertEq]
  have bound := reserved.bound
  have lenEq : insert.compressedLen = bytes.length := by rw [insertEq]
  obtain ⟨after, isAfter, afterEq⟩ := reserved.after
  -- Alone the call reserves the same range, for the metadata are the same.
  have ran : putChunk blake3 now chunkId rawLen bytes s.db =
      .ok (.reserved insert) ({ s.db.1 with volumeMeta := after }, after) := by
    rw [putChunk_of_absent reserved.checked absent]
    rcases reserveChunk_cases v.db.2 now chunkId (blake3 bytes) rawLen bytes.length with
      ⟨noRoom, -⟩ | ⟨-, reserves⟩
    · exact absurd (hasRoom_of_reserved reserved) noRoom
    · obtain ⟨again, againEq, reserves⟩ := reserves s.db.1
      rw [← known] at reserves
      rw [show s.db = (s.db.1, s.db.2) from rfl, reserves, insertEq, ← known]
      obtain rfl : again = after := by
        rw [againEq, afterEq, isMeta, ← known, insertEq, ← known]
        rfl
      rfl
  have alone : putAlone blake3 chunkId ⟨rawLen, bytes, now⟩ s.db =
      storeChunk insert ({ s.db.1 with volumeMeta := after }, after) := putAlone_of_reserved ran
  have offsetFits : insert.volumeOffset ≤ i64Max := (Nat.le_add_right _ _).trans bound
  have lenFits : insert.compressedLen ≤ i64Max :=
    lenEq ▸ (Nat.le_add_left _ _).trans bound
  have absentAfter : v.tables.chunks.find? chunkId = Option.none := reserved.absent
  have noPioneer : v.pioneer = Option.none := by
    rw [expected_of_absent absentAfter] at none
    exact Option.map_eq_none_iff.mp none
  have kept : db.1.chunks = v.tables.chunks := by rw [isAfter]; rfl
  have expects := expected_pushed insert bytes kept absentAfter
  rw [noPioneer, rawLenEq, Option.map_none, Option.none_or] at expects
  have others : ∀ (db : VolumeDb), ∀ put ∈ v.puts.rows, awaited db put = awaited s.db put :=
    fun db put member => awaited_congr fun fits => absurd fits (not_fits none member)
  have result : s.put blake3 chunkId ⟨rawLen, bytes, now⟩ =
      ⟨endState (storeChunk insert ({ s.db.1 with volumeMeta := after }, after)),
        .putChunk chunkId rawLen bytes
          (outcome (storeChunk insert ({ s.db.1 with volumeMeta := after }, after))) ::
            s.returns⟩ := by
    unfold Alone.put
    rw [alone]
  rw [result]
  by_cases rawFits : rawLen ≤ i64Max
  · have fits : insert.Fits := ⟨offsetFits, rawLenEq ▸ rawFits, lenFits⟩
    obtain ⟨chunks, appended⟩ := Table.insert?_isSome
      (isChunk ▸ Table.find?_eq_none.mp absent : ∀ x ∈ s.db.1.chunks.rows, x.chunkId ≠ insert.chunkId)
    have stored : storeChunk insert ({ s.db.1 with volumeMeta := after }, after) =
        .ok insert ({ s.db.1 with volumeMeta := after, chunks := chunks }, after) :=
      storeChunk_of_inserted fits appended
    have row : chunks.find? chunkId = some insert := isChunk ▸ Table.find?_of_insert? appended
    rw [stored]
    refine linked.of_pushed ⟨isChunk, offsetFits, lenFits⟩ ?_ ?_ (others _) ?_
    · rw [expects, if_pos rawFits]
      exact row
    · intro missing
      cases row.symm.trans missing
    · rw [isChunk, rawLenEq, storeChunk_of_found fits (isChunk ▸ row)]
      rfl
  · have unfit : ¬ insert.Fits := fun fits => rawFits (rawLenEq ▸ fits.rawLen)
    obtain ⟨err, failed⟩ := storeChunk_of_unfit unfit
    rw [failed]
    refine linked.of_pushed ⟨isChunk, offsetFits, lenFits⟩ ?_ ?_ (others _) ?_
    · rw [expects, if_neg rawFits]
      exact absent
    · intro missing
      rw [isAfter]
      exact ⟨rfl, rfl⟩
    · rw [isChunk, rawLenEq, failed]
      rfl

/-- A call that is reserved while another one is about to insert joins it. -/
theorem of_reserved_joining (linked : Linked chunkId base v s) {rawLen now : Nat} {bytes : Bytes}
    {insert : ChunkMeta} {db : VolumeDb} {put : PutCall} (pioneer : v.pioneer = some put)
    (same : SameChunk blake3 put.insert rawLen bytes)
    (reserved : Reserved blake3 v.db chunkId rawLen bytes now insert db) :
    Linked chunkId base { v with
      db := db
      puts := v.puts.push (fun call => ⟨call, insert, bytes, 0⟩) fun _ => rfl }
      (s.put blake3 chunkId ⟨rawLen, bytes, now⟩) := by
  have absent : v.tables.chunks.find? chunkId = none := reserved.absent
  have expects : v.expected chunkId = some put.insert := by
    rw [expected_of_absent absent, pioneer]
    rfl
  have found : s.db.1.chunks.find? chunkId = some put.insert := linked.row.trans expects
  have alone : putAlone blake3 chunkId ⟨rawLen, bytes, now⟩ s.db = .ok put.insert s.db :=
    putAlone_of_stored ((putChunk_of_found reserved.checked found).1 same)
  have result : s.put blake3 chunkId ⟨rawLen, bytes, now⟩ =
      ⟨s.db, .putChunk chunkId rawLen bytes (.ok put.insert) :: s.returns⟩ := by
    unfold Alone.put
    rw [alone]
    rfl
  have insertEq := reserved.insert_eq
  have isChunk : insert.chunkId = chunkId := by rw [insertEq]
  have rawLenEq : insert.rawLen = rawLen := by rw [insertEq]
  have lenEq : insert.compressedLen = bytes.length := by rw [insertEq]
  have offsetFits : insert.volumeOffset ≤ i64Max := (Nat.le_add_right _ _).trans reserved.bound
  have lenFits : insert.compressedLen ≤ i64Max :=
    lenEq ▸ (Nat.le_add_left _ _).trans reserved.bound
  have rawFits : put.insert.rawLen ≤ i64Max := by
    unfold Volume.pioneer at pioneer
    simpa using List.find?_some pioneer
  have fits : insert.Fits := ⟨offsetFits, rawLenEq ▸ same.1 ▸ rawFits, lenFits⟩
  have kept : db.1.chunks = v.tables.chunks := by
    obtain ⟨after, isAfter, -⟩ := reserved.after
    rw [isAfter]
    rfl
  have stays := expected_pushed insert bytes kept absent
  rw [pioneer, Option.map_some, Option.some_or] at stays
  rw [result]
  refine linked.of_pushed ⟨isChunk, offsetFits, lenFits⟩ ?_ ?_ (fun _ _ => rfl) ?_
  · rw [stays]
    exact found
  · intro missing
    cases found.symm.trans missing
  · rw [isChunk, rawLenEq, storeChunk_of_found fits (isChunk ▸ found)]
    rfl

theorem of_putChunk (linked : Linked chunkId base v s) {rawLen now : Nat} {bytes : Bytes}
    (joins : Joins blake3 chunkId v (.putChunk chunkId rawLen bytes now))
    (step : VolumeStep blake3 v (.putChunk chunkId rawLen bytes now) v') :
    Linked chunkId base v' (s.put blake3 chunkId ⟨rawLen, bytes, now⟩) := by
  cases step with
  | stored _ _ _ _ existing checked found same =>
      have row : s.db.1.chunks.find? chunkId = some existing :=
        linked.row.trans (expected_of_found found)
      have alone : putAlone blake3 chunkId ⟨rawLen, bytes, now⟩ s.db = .ok existing s.db :=
        putAlone_of_stored ((putChunk_of_found checked row).1 same)
      unfold Alone.put
      rw [alone]
      exact linked.of_returned _
  | refused _ _ _ _ err ran =>
      have alone : putAlone blake3 chunkId ⟨rawLen, bytes, now⟩ s.db = .error err s.db := by
        apply putAlone_of_error
        have outcome : PutOutcome blake3 _ _ _ _ _ _ :=
          putChunk_outcome v.db now chunkId rawLen bytes
        rw [ran] at outcome
        cases outcome with
        | differs existing checked found other =>
            have row : s.db.1.chunks.find? chunkId = some existing :=
              linked.row.trans (expected_of_found found)
            exact (putChunk_of_found checked row).2 other
        | unchecked err refused => exact putChunk_of_unchecked refused s.db
        | noRoom err checked absent refused =>
            rcases reserveChunk_cases v.db.2 now chunkId (blake3 bytes) rawLen bytes.length with
              ⟨noRoom, failure, failed⟩ | ⟨-, reserves⟩
            · cases pioneer : v.pioneer with
              | some put => exact absurd (joins checked absent put pioneer).2 noRoom
              | none =>
                  have idle : v.expected chunkId = none := by
                    rw [expected_of_absent absent, pioneer]
                    rfl
                  have known := (linked.idle idle).1
                  rw [putChunk_of_absent checked (linked.row.trans idle),
                    show s.db = (s.db.1, v.db.2) from Prod.ext rfl known, failed]
                  have same := (failed v.db.1).symm.trans refused
                  obtain ⟨rfl, -⟩ := EStateM.Result.error.inj same
                  rfl
            · obtain ⟨after, -, reserved⟩ := reserves v.db.1
              cases refused.symm.trans reserved
      unfold Alone.put
      rw [alone]
      exact linked.of_returned _
  | reserved _ _ _ _ insert db reserved =>
      cases pioneer : v.pioneer with
      | some put =>
          exact linked.of_reserved_joining pioneer
            (joins reserved.checked reserved.absent put pioneer).1 reserved
      | none =>
          refine linked.of_reserved_idle ?_ reserved
          rw [expected_of_absent (show v.tables.chunks.find? chunkId = none from reserved.absent),
            pioneer]
          rfl

end Linked

/-! ## Runs -/

theorem linked_of_run {base : List VolumeReturn} (events : List VolumeEvent)
    (puts : ∀ e ∈ events, e.Puts chunkId) (linked : Linked chunkId base v s)
    (ran : (volume blake3).execWhile (fun v e => decide (Joins blake3 chunkId v e)) v events =
      some v') :
    Linked chunkId base v'
      ((events.filterMap VolumeEvent.putArgs?).foldl (Alone.put blake3 chunkId) s) := by
  induction events generalizing v s with
  | nil =>
      obtain rfl := Option.some.inj ran
      exact linked
  | cons e rest inductionHypothesis =>
      unfold System.execWhile at ran
      split at ran
      next admitted =>
        have joins := of_decide_eq_true admitted
        obtain ⟨next, taken, later⟩ := Option.bind_eq_some_iff.mp ran
        have first : e.Puts chunkId := puts e List.mem_cons_self
        have others := fun other member => puts other (List.mem_cons_of_mem _ member)
        cases e with
        | putChunk other rawLen bytes now =>
            obtain rfl : other = chunkId := first
            exact inductionHypothesis others (linked.of_putChunk joins (step_cases taken)) later
        | write call count =>
            cases step_cases taken with
            | write put _ found fits slot =>
                exact inductionHypothesis others (linked.of_write found _) later
        | storeChunk call =>
            exact inductionHypothesis others (linked.of_storeChunk joins taken) later
        | failWrite => cases first
        | readChunk => cases first
        | read => cases first
        | failRead => cases first
        | endRead => cases first
        | deleteChunk => cases first
        | commitBundle => cases first
        | deleteBundle => cases first
        | removeBundleChangeRecords => cases first
        | reopen => cases first
      · cases ran

/-- Every call that succeeded alone has the stored row, which is its own. -/
def Owned (blake3 : Bytes → HashId) (chunkId : HashId) (s : Alone) : Prop :=
  ∀ rawLen bytes chunk, .putChunk chunkId rawLen bytes (.ok chunk) ∈ s.returns →
    s.db.1.chunks.find? chunkId = some chunk ∧ SameChunk blake3 chunk rawLen bytes

/-- A call that changes no row and succeeds with its own row only. -/
theorem Owned.of_cons (owned : Owned blake3 chunkId s) {db : VolumeDb} {put : PutArgs}
    {result : Fs0Result ChunkMeta}
    (row : ∀ chunk, s.db.1.chunks.find? chunkId = some chunk →
      db.1.chunks.find? chunkId = some chunk)
    (own : ∀ chunk, result = .ok chunk → db.1.chunks.find? chunkId = some chunk ∧
      SameChunk blake3 chunk put.rawLen put.bytes) :
    Owned blake3 chunkId ⟨db, .putChunk chunkId put.rawLen put.bytes result :: s.returns⟩ := by
  intro rawLen bytes chunk member
  rcases List.mem_cons.mp member with same | old
  · obtain ⟨-, rfl, rfl, isResult⟩ := VolumeReturn.putChunk.inj same
    exact own chunk isResult.symm
  · obtain ⟨found, same⟩ := owned rawLen bytes chunk old
    exact ⟨row chunk found, same⟩

theorem Owned.put (owned : Owned blake3 chunkId s) (put : PutArgs) :
    Owned blake3 chunkId (s.put blake3 chunkId put) := by
  have refused : ∀ err, putChunk blake3 put.now chunkId put.rawLen put.bytes s.db =
      .error err s.db → Owned blake3 chunkId (s.put blake3 chunkId put) := by
    intro err ran
    unfold Alone.put
    rw [putAlone_of_error ran]
    exact owned.of_cons (fun _ => id) nofun
  have outcome : PutOutcome blake3 _ _ _ _ _ _ :=
    putChunk_outcome s.db put.now chunkId put.rawLen put.bytes
  generalize ran : putChunk blake3 put.now chunkId put.rawLen put.bytes s.db = result at outcome
  cases outcome with
  | stored existing checked found same =>
      unfold Alone.put
      rw [putAlone_of_stored ran]
      refine owned.of_cons (fun _ => id) fun chunk isChunk => ?_
      obtain rfl := Except.ok.inj isChunk
      exact ⟨found, same⟩
  | differs existing checked found other => exact refused _ ran
  | unchecked err unchecked => exact refused _ ran
  | noRoom err checked absent noRoom => exact refused _ ran
  | reserved insert db reserved =>
      obtain ⟨after, rfl, -⟩ := reserved.after
      have insertEq := reserved.insert_eq
      have isChunk : insert.chunkId = chunkId := by rw [insertEq]
      unfold Alone.put
      rw [putAlone_of_reserved ran]
      have stored := storeChunk_outcome insert ({ s.db.1 with volumeMeta := after }, after)
      generalize storeChunk insert ({ s.db.1 with volumeMeta := after }, after) = result at stored
      cases stored with
      | inserted chunks fits appended =>
          have row : chunks.find? insert.chunkId = some insert := Table.find?_of_insert? appended
          refine owned.of_cons (fun chunk found => ?_) fun chunk isResult => ?_
          · cases reserved.absent.symm.trans found
          · obtain rfl := Except.ok.inj isResult
            refine ⟨isChunk ▸ row, ?_⟩
            rw [insertEq]
            exact ⟨rfl, rfl, rfl⟩
      | known existing fits found =>
          rw [isChunk] at found
          cases reserved.absent.symm.trans found
      | unfit err unfit => exact owned.of_cons (fun _ => id) nofun

theorem owned_foldl (puts : List PutArgs) (owned : Owned blake3 chunkId s) :
    Owned blake3 chunkId (puts.foldl (Alone.put blake3 chunkId) s) := by
  induction puts generalizing s with
  | nil => exact owned
  | cons put rest inductionHypothesis => exact inductionHypothesis (owned.put put)

/-- Calls of `put_chunk` for one chunk id, each of which joins the calls before it, have
returned what they return one after another in the order in which they began. -/
theorem putChunks_linearized {before after : Volume} (idle : before.puts.rows = [])
    (events : List VolumeEvent) (puts : ∀ e ∈ events, e.Puts chunkId)
    (ran : (volume blake3).execWhile (fun v e => decide (Joins blake3 chunkId v e)) before events =
      some after) (ended : after.puts.rows = []) :
    Linearized blake3 chunkId (events.filterMap VolumeEvent.putArgs?) before after := by
  have start : Linked chunkId before.returns before ⟨before.db, []⟩ := by
    have noPioneer : before.pioneer = none := by
      unfold pioneer
      rw [idle]
      rfl
    refine ⟨fun put member => absurd (idle ▸ member) List.not_mem_nil, ?_, fun _ => ⟨rfl, rfl⟩,
      [], rfl, by rw [idle]; exact .refl _⟩
    have absent : before.expected chunkId = before.tables.chunks.find? chunkId := by
      unfold expected
      rw [noPioneer]
      cases before.tables.chunks.find? chunkId <;> rfl
    exact absent.symm
  have linked := linked_of_run events puts start ran
  obtain ⟨returned, isReturns, perm⟩ := linked.returns
  rw [ended, List.map_nil, List.nil_append] at perm
  have noPioneer : after.pioneer = none := by
    unfold pioneer
    rw [ended]
    rfl
  have row : after.expected chunkId = after.tables.chunks.find? chunkId := by
    unfold expected
    rw [noPioneer]
    cases after.tables.chunks.find? chunkId <;> rfl
  have owned : Owned blake3 chunkId
      ((events.filterMap VolumeEvent.putArgs?).foldl (Alone.put blake3 chunkId) ⟨before.db, []⟩) :=
    owned_foldl _ fun rawLen bytes chunk member => absurd member List.not_mem_nil
  refine ⟨returned, _, isReturns, .refl _, perm, (linked.row.trans row).symm, ?_⟩
  intro rawLen bytes chunk member
  obtain ⟨found, same⟩ := owned rawLen bytes chunk (perm.subset member)
  exact ⟨row.symm.trans (linked.row.symm.trans found), same⟩

/-- Two calls with the same arguments that overlap. -/
theorem putChunks_linearized_twice : ∃ after : Volume,
    after.returns.length = 2 ∧ Linearized Scenario.blake3 (Scenario.hash 7)
      [⟨5, [1, 2, 3], 1⟩, ⟨5, [1, 2, 3], 1⟩] Scenario.initial after := by
  let events : List VolumeEvent :=
    [.putChunk (Scenario.hash 7) 5 [1, 2, 3] 1, .putChunk (Scenario.hash 7) 5 [1, 2, 3] 1,
      .write 2 3, .write 1 3, .storeChunk 1, .storeChunk 2]
  have computed : ((volume Scenario.blake3).execWhile
      (fun v e => decide (Joins Scenario.blake3 (Scenario.hash 7) v e)) Scenario.initial events).map
      (fun v => (v.puts.rows.length, v.returns.length)) = some (0, 2) := by decide +kernel
  obtain ⟨after, ran, counts⟩ := Option.map_eq_some_iff.mp computed
  obtain ⟨ended, returned⟩ := Prod.mk.inj counts
  exact ⟨after, returned, putChunks_linearized rfl events (by simp [events, VolumeEvent.Puts]) ran
    (List.length_eq_zero_iff.mp ended)⟩

/-- Two calls with different lengths and bytes that both find the chunk missing: the
second one to insert returns the row of the first. -/
theorem not_linearized_of_different : ∃ after : Volume, ∃ events,
    (∀ e ∈ events, VolumeEvent.Puts (Scenario.hash 7) e) ∧
    (volume Scenario.blake3).exec Scenario.initial events = some after ∧
    after.puts.rows = [] ∧
    ¬ Linearized Scenario.blake3 (Scenario.hash 7) (events.filterMap VolumeEvent.putArgs?)
      Scenario.initial after := by
  let events : List VolumeEvent :=
    [.putChunk (Scenario.hash 7) 5 [1, 2, 3] 1, .putChunk (Scenario.hash 7) 6 [1, 2] 1,
      .write 1 3, .write 2 2, .storeChunk 1, .storeChunk 2]
  have computed : ((volume Scenario.blake3).exec Scenario.initial events).map
      (fun v => (v.puts.rows.length, v.returns.head?)) = some (0, some (.putChunk (Scenario.hash 7) 6
        [1, 2] (.ok ⟨Scenario.hash 7, Scenario.hash 1, 0, 5, 3⟩))) := by decide +kernel
  obtain ⟨after, ran, facts⟩ := Option.map_eq_some_iff.mp computed
  obtain ⟨ended, returned⟩ := Prod.mk.inj facts
  refine ⟨after, events, by simp [events, VolumeEvent.Puts], ran,
    List.length_eq_zero_iff.mp ended, ?_⟩
  rintro ⟨news, order, isReturns, -, -, -, own⟩
  have member : .putChunk (Scenario.hash 7) 6 [1, 2]
      (.ok ⟨Scenario.hash 7, Scenario.hash 1, 0, 5, 3⟩) ∈ news := by
    have all : after.returns = news := isReturns.trans (List.append_nil _)
    exact all ▸ List.mem_of_mem_head? returned
  have wrong : (5 : Nat) = 6 := (own 6 [1, 2] _ member).2.1
  cases wrong

end Volume

end Fs0
