import AkiDB.Library.ByteFraming
import AkiDB.Library.ByteStream

/-! Records of the write-ahead log, and the reader that resynchronises on their magic. -/

namespace AkiDB.Wal
open ByteFraming ByteStream

def crcShift (crc : UInt32) : UInt32 :=
  if crc &&& 1 ≠ 0 then (crc >>> 1) ^^^ 0xEDB88320 else crc >>> 1

def crcTable (index : UInt32) : UInt32 :=
  crcShift^[8] index

def crc32 (data : Bytes) : UInt32 :=
  ~~~(data.foldl
    (fun crc byte => (crc >>> 8) ^^^ crcTable ((crc ^^^ byte.toUInt32) &&& 0xFF)) 0xFFFFFFFF)

def walEntryMagic : Bytes := [0xAA, 0x4B, 0x44, 0x01]

def maxVectorDimensions : Nat := 16384

def maxMetadataBytes : Nat := 1048576

def maxWalEntryBytes : Nat := 100000000

inductive WalEntry where
  /-- The vector holds the bit patterns of its components. -/
  | insert (lsn : UInt64) (externalId : String) (internalId : Int64) (vector : List UInt32)
      (metadata : Option Bytes) (timestamp : UInt64)
  | delete (lsn : UInt64) (externalId : String) (internalId : Int64) (timestamp : UInt64)
  | checkpoint (lsn : UInt64) (timestamp : UInt64)
  deriving DecidableEq

def WalEntry.lsn : WalEntry → UInt64
  | insert lsn .. => lsn
  | delete lsn .. => lsn
  | checkpoint lsn _ => lsn

/-- The serializer decodes what it encodes, whatever follows; a checkpoint has 20 bytes. -/
structure Bincode where
  serialize : WalEntry → Except String Bytes
  deserialize : Bytes → Except String WalEntry
  deserialize_serialize {entry : WalEntry} {data : Bytes}
    : serialize entry = .ok data → deserialize data = .ok entry
  serialize_deserialize {entry : WalEntry} {data : Bytes}
    : deserialize data = .ok entry → ∃ front, serialize entry = .ok front ∧ front <+: data
  serialize_checkpoint (lsn timestamp : UInt64)
    : ∃ data, serialize (.checkpoint lsn timestamp) = .ok data ∧ data.length = 20

def record (data : Bytes) : Bytes :=
  walEntryMagic ++ leBytes 4 data.length ++ data ++ leBytes 4 (crc32 data).toNat

/-- What follows the next magic. The window holds the last bytes read, four at most. -/
def scanForMagic (window : Bytes) : Bytes → Option Bytes
  | [] => none
  | byte :: rest =>
    let shifted :=
      if window.length < 4 then window ++ [byte] else window.drop 1 ++ [byte]
    if shifted = walEntryMagic then some rest else scanForMagic shifted rest

/-- The reader's flags; recovery begins after the first record, so not at the start of the file. -/
inductive ReaderMode where
  | fileStart
  | expectMagic
  | corruptionRecovery
  deriving DecidableEq

/-- How one turn of the reader's loop ends, with the bytes it has not consumed. -/
inductive ReaderTurn where
  | finished
  | corrupted (unread : Bytes)
  | entry (entry : WalEntry) (unread : Bytes)

variable (codec : Bincode)

/-- The rest of a record whose magic was read; a read past the end has consumed all of it. -/
def readAfterMagic (unread : Bytes) : ReaderTurn :=
  match readExact 4 unread with
  | none => .finished
  | some (lenBuf, afterLen) =>
    if leValue lenBuf > maxWalEntryBytes then .corrupted afterLen
    else
      match readExact (leValue lenBuf) afterLen with
      | none => .corrupted []
      | some (data, afterData) =>
        match readExact 4 afterData with
        | none => .corrupted []
        | some (checksumBuf, rest) =>
          if leValue checksumBuf ≠ (crc32 data).toNat then .corrupted rest
          else
            match codec.deserialize data with
            | .ok entry => .entry entry rest
            | .error _ => .corrupted rest

/-- A first record without magic or checksum, whose four leading bytes are its length. -/
def readLegacy (lenBuf unread : Bytes) : ReaderTurn :=
  if leValue lenBuf > maxWalEntryBytes then .corrupted unread
  else
    match readExact (leValue lenBuf) unread with
    | none => .corrupted []
    | some (data, rest) =>
      match codec.deserialize data with
      | .ok entry => .entry entry rest
      | .error _ => .corrupted rest

def readTurn (mode : ReaderMode) (unread : Bytes) : ReaderTurn :=
  match mode with
  | .corruptionRecovery =>
    match scanForMagic [] unread with
    | none => .finished
    | some rest => readAfterMagic codec rest
  | .fileStart | .expectMagic =>
    match readExact 4 unread with
    | none => .finished
    | some (magicBuf, rest) =>
      if magicBuf = walEntryMagic then readAfterMagic codec rest
      else if mode = .fileStart then readLegacy codec magicBuf rest
      else .corrupted rest

def readTurns (codec : Bincode) : Nat → ReaderMode → Bytes → List WalEntry
  | 0, _, _ => []
  | turns + 1, mode, unread =>
    match readTurn codec mode unread with
    | .finished => []
    | .corrupted rest => readTurns codec turns .corruptionRecovery rest
    | .entry entry rest => entry :: readTurns codec turns .expectMagic rest

/-- All entries from some position on. Every turn consumes at least one byte. -/
def entriesFrom (mode : ReaderMode) (unread : Bytes) : List WalEntry :=
  readTurns codec (unread.length + 1) mode unread

def readEntriesFromReader (file : Bytes) : List WalEntry :=
  entriesFrom codec .fileStart file

/-! Reading with one read that fails -/

/-- The part of a turn whose read fails; a failing read has consumed the bytes before it. -/
inductive FailedRead where
  | scan
  | magic
  | body

def bodyFails (reach : Bytes) : Bool :=
  match readExact 4 reach with
  | none => true
  | some (lenBuf, afterLen) =>
    leValue lenBuf ≤ maxWalEntryBytes && match readExact (leValue lenBuf) afterLen with
      | none => true
      | some (_, afterData) => (readExact 4 afterData).isNone

def legacyFails (lenBuf reach : Bytes) : Bool :=
  leValue lenBuf ≤ maxWalEntryBytes && (readExact (leValue lenBuf) reach).isNone

/-- The read of a turn that fails because it goes beyond the bytes within reach. -/
def failedRead (mode : ReaderMode) (reach : Bytes) : Option FailedRead :=
  match mode with
  | .corruptionRecovery =>
    match scanForMagic [] reach with
    | none => some .scan
    | some rest => if bodyFails rest then some .body else none
  | .fileStart | .expectMagic =>
    match readExact 4 reach with
    | none => some .magic
    | some (magicBuf, rest) =>
      if magicBuf = walEntryMagic then if bodyFails rest then some .body else none
      else if mode = .fileStart ∧ legacyFails magicBuf rest then some .body
      else none

/-- The entries when the first read beyond the bytes within reach fails, and later ones do not. -/
def readTurnsFailing (codec : Bincode) : Nat → ReaderMode → Bytes → Bytes → List WalEntry
  | 0, _, _, _ => []
  | turns + 1, mode, reach, behind =>
    match failedRead mode reach with
    | some .scan => []
    -- an error item is counted, and the flags of the reader stay as they are
    | some .magic => entriesFrom codec mode behind
    | some .body => entriesFrom codec .corruptionRecovery behind
    | none =>
      match readTurn codec mode reach with
      | .finished => []
      | .corrupted rest => readTurnsFailing codec turns .corruptionRecovery rest behind
      | .entry entry rest => entry :: readTurnsFailing codec turns .expectMagic rest behind

def readEntriesFailing (file : Bytes) : Option Nat → List WalEntry
  | none => readEntriesFromReader codec file
  | some offset =>
    readTurnsFailing codec (offset + 1) .fileStart (file.take offset) (file.drop offset)

end AkiDB.Wal
