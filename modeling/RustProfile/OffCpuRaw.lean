import RustProfile.OffCpuLemmas
import RustProfile.Lib.Bytes

/-!
# Raw switch events

The ring hands the collector byte strings. One that is too short for what its
header says is counted incomplete, as is a switch-out without a stack; neither
touches the pending interval of its thread.
-/

namespace RustProfile

def eventHeaderSize : ℕ := 24
def eventStackSize : ℕ := eventHeaderSize + 127 * 8
def eventSwitchOut : UInt32 := 1
def eventSwitchIn : UInt32 := 2

def readU32 (bytes : List UInt8) (offset : ℕ) : UInt32 := ((Bytes.readAt 4 offset bytes).map UInt32.ofNat).getD 0

def readI32 (bytes : List UInt8) (offset : ℕ) : ℤ := (readU32 bytes offset).toInt32.toInt

def readU64 (bytes : List UInt8) (offset : ℕ) : UInt64 := ((Bytes.readAt 8 offset bytes).map UInt64.ofNat).getD 0

/-- The switch that the header of a record tells of. -/
def readHeader (bytes : List UInt8) (kind : SwitchKind) : SwitchEvent where
  kind := kind
  pid := readU32 bytes 4
  tid := readU32 bytes 8
  stackLen := max (readI32 bytes 12) 0
  timestamp := (readU64 bytes 16).toNat

/-- The words behind the header. -/
def readIps (bytes : List UInt8) : List UInt64 := (List.range 127).map fun index => readU64 bytes (24 + index * 8)

def OffCpuCollector.countIncomplete (self : OffCpuCollector) : OffCpuCollector :=
  { self with incompleteIntervals := saturatingAddU64 self.incompleteIntervals 1 }

/-- `apply` as the channel's bytes reach it. -/
def OffCpuCollector.applyRaw (self : OffCpuCollector) (comm : Comm) (bytes : List UInt8) : OffCpuCollector :=
  if bytes.length < eventHeaderSize then self.countIncomplete
  else if readU32 bytes 0 = eventSwitchOut then
    if bytes.length < eventStackSize then self.countIncomplete
    else self.applySwitchOut { readHeader bytes .switchOut with ips := readIps bytes }
  else if readU32 bytes 0 = eventSwitchIn then self.applySwitchIn comm (readHeader bytes .switchIn)
  else self

/-! ## What a record tells -/

/-- The switch of a record with a header. One that is too short for its stack has none. -/
def rawSwitch (bytes : List UInt8) : Option SwitchEvent :=
  if bytes.length < eventHeaderSize then none
  else if readU32 bytes 0 = eventSwitchOut then
    some { readHeader bytes .switchOut with ips := if bytes.length < eventStackSize then [] else readIps bytes }
  else if readU32 bytes 0 = eventSwitchIn then some (readHeader bytes .switchIn)
  else none

namespace OffCpuCollector

variable (self : OffCpuCollector) (comm : Comm)

/-- A record changes the pending intervals as its switch does. -/
theorem applyRaw_pending (bytes : List UInt8) (tid : UInt32) :
    (self.applyRaw comm bytes).pending.lookup tid =
      match rawSwitch bytes with
      | some event => (self.apply comm event).pending.lookup tid
      | none => self.pending.lookup tid := by
  unfold applyRaw rawSwitch
  by_cases hheader : bytes.length < eventHeaderSize
  · rw [if_pos hheader, if_pos hheader]
    rfl
  · rw [if_neg hheader, if_neg hheader]
    by_cases hout : readU32 bytes 0 = eventSwitchOut
    · rw [if_pos hout, if_pos hout]
      by_cases hstack : bytes.length < eventStackSize
      · simp only [if_pos hstack]
        rw [apply_pending]
        simp [countIncomplete, pendingAfter, SwitchEvent.frames, readHeader]
      · simp only [if_neg hstack]
        rfl
    · rw [if_neg hout, if_neg hout]
      by_cases hin : readU32 bytes 0 = eventSwitchIn
      · rw [if_pos hin, if_pos hin]
        rfl
      · rw [if_neg hin, if_neg hin]

/-- A switch-out is what it says of its thread, and its frames. -/
theorem applySwitchOut_congr {event event' : SwitchEvent} (hpid : event.pid = event'.pid)
    (htid : event.tid = event'.tid)
    (htime : event.timestamp = event'.timestamp) (hframes : event.frames = event'.frames) :
    self.applySwitchOut event = self.applySwitchOut event' := by
  unfold applySwitchOut
  rw [hpid, htid, htime, hframes]

theorem foldl_applyRaw_pending (records : List (List UInt8)) (tid : UInt32) :
    (records.foldl (applyRaw · comm) self).pending.lookup tid =
      ((records.filterMap rawSwitch).foldl (apply · comm) self).pending.lookup tid := by
  induction records using List.reverseRecOn with
  | nil => rfl
  | append_singleton records bytes ih =>
    rw [List.foldl_append, List.foldl_cons, List.foldl_nil, applyRaw_pending, List.filterMap_append, List.foldl_append]
    cases hraw : rawSwitch bytes with
    | none =>
      simp only [List.filterMap_cons, hraw, List.filterMap_nil, List.foldl_nil]
      exact ih
    | some event =>
      simp only [List.filterMap_cons, hraw, List.filterMap_nil, List.foldl_cons, List.foldl_nil]
      rw [apply_pending, apply_pending, ih]

end OffCpuCollector

/-! ## The kernel's records -/

/-- The record that the kernel program submits; the words behind the stack are what the ring held there. -/
def SwitchEvent.bytes (event : SwitchEvent) (stale : List UInt64) : List UInt8 :=
  let header (kind : UInt32) : List UInt8 :=
    Bytes.ofNat 4 kind.toNat ++ Bytes.ofNat 4 event.pid.toNat ++ Bytes.ofNat 4 event.tid.toNat ++
      Bytes.ofNat 4 event.stackLen.toNat ++ Bytes.ofNat 8 event.timestamp
  match event.kind with
  | .switchOut => header eventSwitchOut ++ (event.ips ++ stale).flatMap fun ip => Bytes.ofNat 8 ip.toNat
  | .switchIn => header eventSwitchIn

/-- What the kernel program submits: at most 127 words and their length in bytes. -/
structure SwitchEvent.Submitted (event : SwitchEvent) (stale : List UInt64) : Prop where
  timestamp : event.timestamp < 2 ^ 64
  stackLen : event.stackLen = 8 * event.ips.length
  words : (event.ips ++ stale).length = 127

section
variable {before rest : List UInt8} {offset : ℕ} (hb : before.length = offset)

include hb

theorem readU32_field (x : UInt32) : readU32 (before ++ (Bytes.ofNat 4 x.toNat ++ rest)) offset = x := by
  unfold readU32
  rw [Bytes.readAt_field hb x.toNat_lt, Option.map_some, Option.getD_some, UInt32.ofNat_toNat]

theorem readU64_field (x : UInt64) : readU64 (before ++ (Bytes.ofNat 8 x.toNat ++ rest)) offset = x := by
  unfold readU64
  rw [Bytes.readAt_field hb x.toNat_lt, Option.map_some, Option.getD_some, UInt64.ofNat_toNat]

theorem readI32_field {n : ℕ} (hn : n < 2 ^ 31) : readI32 (before ++ (Bytes.ofNat 4 n ++ rest)) offset = n := by
  unfold readI32 readU32
  rw [Bytes.readAt_field hb (by omega), Option.map_some, Option.getD_some, UInt32.toInt32_ofNat']
  exact Int32.toInt_ofNat_of_lt hn

end

theorem readU64_words : ∀ {words : List UInt64} (before : List UInt8) {i : ℕ} (hi : i < words.length),
    readU64 (before ++ words.flatMap fun ip => Bytes.ofNat 8 ip.toNat) (before.length + i * 8) = words[i]
  | word :: words, before, 0, _ => by
    rw [Nat.zero_mul, Nat.add_zero, List.flatMap_cons]
    exact readU64_field rfl word
  | word :: words, before, i + 1, hi => by
    have ih := @readU64_words words (before ++ Bytes.ofNat 8 word.toNat) i (Nat.lt_of_succ_lt_succ hi)
    rw [List.length_append, Bytes.length_ofNat, List.append_assoc] at ih
    rw [List.flatMap_cons, Nat.succ_mul, Nat.add_comm (i * 8), ← Nat.add_assoc]
    exact ih

section
variable {event : SwitchEvent} {stale : List UInt64}

theorem SwitchEvent.Submitted.header (h : event.Submitted stale) (kind : UInt32) (rest : List UInt8) :
    let bytes := Bytes.ofNat 4 kind.toNat ++ Bytes.ofNat 4 event.pid.toNat ++ Bytes.ofNat 4 event.tid.toNat ++
      Bytes.ofNat 4 event.stackLen.toNat ++ Bytes.ofNat 8 event.timestamp ++ rest
    readU32 bytes 0 = kind ∧ readHeader bytes event.kind = { event with ips := [] } := by
  have hlength : event.stackLen.toNat = 8 * event.ips.length := by
    rw [h.stackLen]
    omega
  have hwords := h.words
  rw [List.length_append] at hwords
  have hkind := @readU32_field [] (Bytes.ofNat 4 event.pid.toNat ++ (Bytes.ofNat 4 event.tid.toNat ++
    (Bytes.ofNat 4 event.stackLen.toNat ++ (Bytes.ofNat 8 event.timestamp ++ rest)))) 0 rfl kind
  have hpid := @readU32_field (Bytes.ofNat 4 kind.toNat) (Bytes.ofNat 4 event.tid.toNat ++
    (Bytes.ofNat 4 event.stackLen.toNat ++ (Bytes.ofNat 8 event.timestamp ++ rest))) 4 rfl event.pid
  have htid := @readU32_field (Bytes.ofNat 4 kind.toNat ++ Bytes.ofNat 4 event.pid.toNat)
    (Bytes.ofNat 4 event.stackLen.toNat ++ (Bytes.ofNat 8 event.timestamp ++ rest)) 8 rfl event.tid
  have hstack := @readI32_field (Bytes.ofNat 4 kind.toNat ++ Bytes.ofNat 4 event.pid.toNat ++
    Bytes.ofNat 4 event.tid.toNat) (Bytes.ofNat 8 event.timestamp ++ rest) 12 rfl event.stackLen.toNat (by omega)
  have htime := @readU64_field (Bytes.ofNat 4 kind.toNat ++ Bytes.ofNat 4 event.pid.toNat ++
    Bytes.ofNat 4 event.tid.toNat ++ Bytes.ofNat 4 event.stackLen.toNat) rest 16 rfl (UInt64.ofNat event.timestamp)
  have htoNat : (UInt64.ofNat event.timestamp).toNat = event.timestamp := UInt64.toNat_ofNat_of_lt' h.timestamp
  rw [htoNat] at htime
  simp only [List.nil_append, List.append_assoc] at hkind hpid htid hstack htime
  simp only [List.append_assoc]
  refine ⟨hkind, ?_⟩
  unfold readHeader
  rw [hpid, htid, hstack, htime, htoNat]
  have hmax : max (event.stackLen.toNat : ℤ) 0 = event.stackLen := by
    rw [h.stackLen]
    omega
  rw [hmax]

theorem length_words (words : List UInt64) :
    (words.flatMap fun ip => Bytes.ofNat 8 ip.toNat).length = 8 * words.length := by
  induction words with
  | nil => rfl
  | cons word words ih =>
    rw [List.flatMap_cons, List.length_append, ih, Bytes.length_ofNat, List.length_cons]
    omega

/-- Only the words of its stack are frames of a switch-out. -/
theorem SwitchEvent.Submitted.frames (h : event.Submitted stale) :
    SwitchEvent.frames { event with ips := event.ips ++ stale } = event.frames := by
  unfold SwitchEvent.frames
  dsimp only
  rw [List.take_append_of_le_length]
  have hlength := h.stackLen
  omega

/-- **The collector reads what the kernel program writes.** -/
theorem applyRaw_bytes (h : event.Submitted stale) (self : OffCpuCollector) (comm : Comm) :
    self.applyRaw comm (event.bytes stale) = self.apply comm event := by
  unfold OffCpuCollector.applyRaw OffCpuCollector.apply SwitchEvent.bytes
  dsimp only
  cases hk : event.kind with
  | switchOut =>
    obtain ⟨hkind, hheader⟩ := h.header eventSwitchOut ((event.ips ++ stale).flatMap fun ip => Bytes.ofNat 8 ip.toNat)
    rw [hk] at hheader
    have hips : readIps (Bytes.ofNat 4 eventSwitchOut.toNat ++ Bytes.ofNat 4 event.pid.toNat ++
        Bytes.ofNat 4 event.tid.toNat ++ Bytes.ofNat 4 event.stackLen.toNat ++ Bytes.ofNat 8 event.timestamp ++
        (event.ips ++ stale).flatMap fun ip => Bytes.ofNat 8 ip.toNat) = event.ips ++ stale := by
      unfold readIps
      refine List.ext_getElem (by rw [List.length_map, List.length_range, h.words]) fun i hi hi' => ?_
      rw [List.getElem_map, List.getElem_range]
      exact readU64_words _ hi'
    rw [if_neg, if_pos hkind, if_neg, hheader, hips]
    · exact OffCpuCollector.applySwitchOut_congr self rfl rfl rfl h.frames
    · rw [List.length_append, length_words, h.words]
      exact lt_irrefl eventStackSize
    · rw [List.length_append]
      exact Nat.not_lt.mpr (Nat.le_add_right eventHeaderSize _)
  | switchIn =>
    obtain ⟨hkind, hheader⟩ := h.header eventSwitchIn []
    rw [hk] at hheader
    rw [List.append_nil] at hkind hheader
    have hin : eventSwitchIn ≠ eventSwitchOut := by decide
    rw [if_neg, if_neg (by rw [hkind]; exact hin), if_pos hkind, hheader]
    · rfl
    · exact lt_irrefl eventHeaderSize

end

end RustProfile
