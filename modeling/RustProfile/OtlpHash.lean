import RustProfile.Lib.Bytes
import RustProfile.Lib.FifoCache

/-!
# Hashes of mapped files

A mapping is identified by a hash of the first and the last page of its file and
of the file's length. The hashes are cached by what tells one state of a file
from another, its device, inode, length and times. A cached hash is the one that
hashing the file gives, as long as two files of one identity have the same bytes.
-/

namespace RustProfile

namespace Otlp

/-- `MAPPING_HASH_CACHE_CAPACITY`. -/
def mappingHashCacheCapacity : ℕ := 4096

structure FileIdentity where
  device : UInt64
  inode : UInt64
  length : UInt64
  modifiedSeconds : ℤ
  modifiedNanoseconds : ℤ
  changedSeconds : ℤ
  changedNanoseconds : ℤ
  deriving DecidableEq, Repr

abbrev MappingHashCache := FifoCache FileIdentity String

/-- A file that has been opened. What cannot be had of it is `none`. -/
structure MappedFile where
  identity : Option FileIdentity
  contents : Option (List UInt8)

/-- `read_exact`, from an offset on. -/
def readExact (contents : List UInt8) (offset count : ℕ) : Option (List UInt8) :=
  if offset + count ≤ contents.length then some ((contents.drop offset).take count) else none

def hexPair (byte : UInt8) : List Char := [Nat.digitChar (byte.toNat / 16), Nat.digitChar (byte.toNat % 16)]

/-- `hex::encode`. -/
def hexEncode (bytes : List UInt8) : String := String.ofList (bytes.flatMap hexPair)

def mapFilePath (pid : ℤ) (start limit : UInt64) : String :=
  "/proc/" ++ toString pid ++ "/map_files/" ++ String.ofList (Nat.toDigits 16 start.toNat) ++ "-" ++
    String.ofList (Nat.toDigits 16 limit.toNat)

section
variable (sha256 : List UInt8 → List UInt8)

/-- The hash of a file of this length. -/
def hashContents (length : ℕ) (contents : List UInt8) : Option String := do
  let page := min 4096 length
  let first ← readExact contents 0 page
  let last ← readExact contents (length - page) page
  return hexEncode ((sha256 (first ++ last ++ (Bytes.ofNat 8 length).reverse)).take 16)

/-- The file that a mapping's link opens, at one time. -/
abbrev MapFiles := String → Option MappedFile

/-- The caller makes nothing of an error but that there is no hash. -/
def htlhash (files : MapFiles) (pid : ℤ) (start limit : UInt64) (cache : MappingHashCache) :
    Option String × MappingHashCache :=
  match files (mapFilePath pid start limit) with
  | none => (none, cache)
  | some file =>
    match file.identity with
    | none => (none, cache)
    | some identity =>
      match cache.entries.lookup identity with
      | some hash => (some hash, cache)
      | none =>
        match file.contents.bind (hashContents sha256 identity.length.toNat) with
        | none => (none, cache)
        | some hash =>
          (some hash,
            (if cache.entries.size ≥ mappingHashCacheCapacity then cache.evict else cache).insert identity hash)

structure HashCall where
  files : MapFiles
  pid : ℤ
  start : UInt64
  limit : UInt64

/-- The lookups of a session, one after another. -/
def htlhashes : List HashCall → MappingHashCache → List (Option String) × MappingHashCache
  | [], cache => ([], cache)
  | call :: calls, cache =>
    let (hash, cache) := htlhash sha256 call.files call.pid call.start call.limit cache
    let (hashes, cache) := htlhashes calls cache
    (hash :: hashes, cache)

namespace HashCall

variable (call : HashCall)

def file : Option MappedFile := call.files (mapFilePath call.pid call.start call.limit)

/-- The hash without the cache. -/
def plainHash : Option String := do
  let file ← call.file
  let identity ← file.identity
  let contents ← file.contents
  hashContents sha256 identity.length.toNat contents

variable {call}

theorem plainHash_of_file {file : MappedFile} {identity : FileIdentity} (hfile : call.file = some file)
    (hidentity : file.identity = some identity) :
    call.plainHash sha256 = file.contents.bind (hashContents sha256 identity.length.toNat) := by
  unfold plainHash
  rw [hfile]
  simp [hidentity]

end HashCall

/-! ## The cache agrees with hashing -/

/-- The files of one identity have these bytes, wherever they can be read. -/
def SameBytes (contents : FileIdentity → List UInt8) (calls : List HashCall) : Prop :=
  ∀ call ∈ calls, ∀ file identity bytes, call.file = some file → file.identity = some identity →
    file.contents = some bytes → bytes = contents identity

def hashOf (contents : FileIdentity → List UInt8) (identity : FileIdentity) : Option String :=
  hashContents sha256 identity.length.toNat (contents identity)

/-- A result is the plain hash. Only what can no longer be read may have one that it had before. -/
structure Right (contents : FileIdentity → List UInt8) (call : HashCall) (hash : Option String) : Prop where
  plain : ∀ h, call.plainHash sha256 = some h → hash = some h
  found : ∀ h, hash = some h → ∃ file identity, call.file = some file ∧ file.identity = some identity ∧
    hashOf sha256 contents identity = some h

structure CacheRight (contents : FileIdentity → List UInt8) (cache : MappingHashCache) : Prop where
  holds : ∃ inserted, cache.Holds mappingHashCacheCapacity
    (fun identity => (hashOf sha256 contents identity).getD "") inserted
  hashed : ∀ identity ∈ cache.entries, (hashOf sha256 contents identity).isSome = true

variable {sha256} {contents : FileIdentity → List UInt8} {cache : MappingHashCache} {call : HashCall}

theorem SameBytes.head {calls : List HashCall} (h : SameBytes contents (call :: calls)) : SameBytes contents [call] :=
  fun other hother => h other (List.mem_cons.mpr (.inl (List.mem_singleton.mp hother)))

theorem SameBytes.tail {calls : List HashCall} (h : SameBytes contents (call :: calls)) : SameBytes contents calls :=
  fun other hother => h other (List.mem_cons_of_mem call hother)

theorem cacheRight_empty : CacheRight sha256 contents {} where
  holds := ⟨[], FifoCache.holds_empty _ _⟩
  hashed := fun identity h => by simp at h

theorem CacheRight.lookup (h : CacheRight sha256 contents cache) {identity : FileIdentity} {hash : String}
    (hlookup : cache.entries.lookup identity = some hash) : hashOf sha256 contents identity = some hash := by
  obtain ⟨inserted, hholds⟩ := h.holds
  have hvalue := hholds.sound identity hash hlookup
  obtain ⟨found, hfound⟩ := Option.isSome_iff_exists.mp (h.hashed identity (Table.mem_of_lookup hlookup))
  rw [hfound, Option.getD_some] at hvalue
  rw [hfound, hvalue]

theorem CacheRight.insert (h : CacheRight sha256 contents cache) {identity : FileIdentity} {hash : String}
    (hlookup : cache.entries.lookup identity = none) (hhash : hashOf sha256 contents identity = some hash) :
    CacheRight sha256 contents
      ((if cache.entries.size ≥ mappingHashCacheCapacity then cache.evict else cache).insert identity hash) := by
  obtain ⟨inserted, hholds⟩ := h.holds
  have hget := (hholds.get (by decide) identity).2
  unfold FifoCache.get at hget
  rw [hlookup] at hget
  dsimp only at hget
  rw [hhash, Option.getD_some] at hget
  refine ⟨⟨_, hget⟩, fun other hother => ?_⟩
  have hkept : other = identity ∨ other ∈ cache.entries := by
    unfold FifoCache.insert at hother
    dsimp only at hother
    rw [AList.mem_insert] at hother
    rcases hother with rfl | hother
    · exact .inl rfl
    · split at hother
      · unfold FifoCache.evict at hother
        split at hother
        · exact .inr hother
        · rw [AList.mem_erase] at hother
          exact .inr hother.2
      · exact .inr hother
  rcases hkept with rfl | hother
  · rw [hhash]
    rfl
  · exact h.hashed other hother

theorem right_none (h : call.plainHash sha256 = none) : Right sha256 contents call none where
  plain := fun hash hplain => by cases h.symm.trans hplain
  found := fun hash hnone => by cases hnone

theorem CacheRight.htlhash (h : CacheRight sha256 contents cache) (hsame : SameBytes contents [call]) :
    Right sha256 contents call (Otlp.htlhash sha256 call.files call.pid call.start call.limit cache).1 ∧
      CacheRight sha256 contents (Otlp.htlhash sha256 call.files call.pid call.start call.limit cache).2 := by
  unfold Otlp.htlhash
  cases hfile : call.files (mapFilePath call.pid call.start call.limit) with
  | none =>
    have hplain : call.plainHash sha256 = none := by
      unfold HashCall.plainHash HashCall.file
      rw [hfile]
      rfl
    exact ⟨right_none hplain, h⟩
  | some file =>
    dsimp only
    cases hidentity : file.identity with
    | none =>
      have hplain : call.plainHash sha256 = none := by
        unfold HashCall.plainHash HashCall.file
        rw [hfile]
        simp [hidentity]
      exact ⟨right_none hplain, h⟩
    | some identity =>
      have hplain := HashCall.plainHash_of_file sha256 hfile hidentity
      have hbytes : ∀ bytes, file.contents = some bytes → bytes = contents identity := fun bytes =>
        hsame call List.mem_cons_self file identity bytes hfile hidentity
      -- What the cache keeps is the hash of the identity's own bytes, whichever call read them.
      have hhash : ∀ hash, file.contents.bind (hashContents sha256 identity.length.toNat) = some hash →
          hashOf sha256 contents identity = some hash := by
        intro hash hhash
        obtain ⟨bytes, hcontents, hhash⟩ := Option.bind_eq_some_iff.mp hhash
        rw [hbytes bytes hcontents] at hhash
        exact hhash
      dsimp only
      cases hlookup : cache.entries.lookup identity with
      | some cached =>
        have hcached := h.lookup hlookup
        refine ⟨⟨fun hash hfound => ?_, fun hash hfound => ?_⟩, h⟩
        · rw [hplain] at hfound
          exact hcached.symm.trans (hhash hash hfound)
        · cases hfound
          exact ⟨file, identity, hfile, hidentity, hcached⟩
      | none =>
        dsimp only
        cases hfresh : file.contents.bind (hashContents sha256 identity.length.toNat) with
        | none => exact ⟨right_none (hplain.trans hfresh), h⟩
        | some fresh =>
          refine ⟨⟨fun hash hfound => ?_, fun hash hfound => ?_⟩, h.insert hlookup (hhash fresh hfresh)⟩
          · rw [hplain, hfresh] at hfound
            exact hfound
          · cases hfound
            exact ⟨file, identity, hfile, hidentity, hhash fresh hfresh⟩

theorem CacheRight.htlhashes : ∀ {calls : List HashCall} {cache : MappingHashCache},
    CacheRight sha256 contents cache → SameBytes contents calls →
      List.Forall₂ (Right sha256 contents) calls (Otlp.htlhashes sha256 calls cache).1 ∧
        CacheRight sha256 contents (Otlp.htlhashes sha256 calls cache).2
  | [], cache, h, _ => ⟨.nil, h⟩
  | call :: calls, cache, h, hsame => by
    obtain ⟨hfirst, hcache⟩ := h.htlhash hsame.head
    obtain ⟨hrest, hlast⟩ := hcache.htlhashes hsame.tail
    exact ⟨.cons hfirst hrest, hlast⟩

theorem Right.eq_plain {hash : Option String} (h : Right sha256 contents call hash)
    (hsame : SameBytes contents [call]) (hreadable : ∀ file, call.file = some file → file.contents ≠ none) :
    hash = call.plainHash sha256 := by
  cases hash with
  | none =>
    cases hplain : call.plainHash sha256 with
    | none => rfl
    | some plain => exact h.plain plain hplain
  | some cached =>
    obtain ⟨file, identity, hfile, hidentity, hcached⟩ := h.found cached rfl
    obtain ⟨bytes, hbytes⟩ := Option.ne_none_iff_exists'.mp (hreadable file hfile)
    have hsound := hsame call List.mem_cons_self file identity bytes hfile hidentity hbytes
    subst hsound
    rw [HashCall.plainHash_of_file sha256 hfile hidentity, hbytes, Option.bind_some]
    exact hcached.symm

theorem hashes_eq_plain : ∀ {calls : List HashCall} {hashes : List (Option String)},
    List.Forall₂ (Right sha256 contents) calls hashes → SameBytes contents calls →
      (∀ call ∈ calls, ∀ file, call.file = some file → file.contents ≠ none) →
        hashes = calls.map (HashCall.plainHash sha256)
  | _, _, .nil, _, _ => rfl
  | call :: calls, _, .cons hfirst hrest, hsame, hreadable => by
    have heq := hfirst.eq_plain hsame.head (hreadable call List.mem_cons_self)
    have ih := hashes_eq_plain hrest hsame.tail fun other hother => hreadable other (List.mem_cons_of_mem call hother)
    rw [List.map_cons, ← heq, ← ih]

/-- **The cache changes no hash**: a session's lookups give what hashing each file at the time gives, if
it can be read then. What can no longer be read may get the hash that its identity had. The cache
never outgrows its capacity. -/
theorem htlhashes_right {calls : List HashCall} (hsame : SameBytes contents calls) :
    List.Forall₂ (Right sha256 contents) calls (htlhashes sha256 calls {}).1 ∧
      ((∀ call ∈ calls, ∀ file, call.file = some file → file.contents ≠ none) →
        (htlhashes sha256 calls {}).1 = calls.map (HashCall.plainHash sha256)) ∧
      (htlhashes sha256 calls {}).2.entries.size ≤ mappingHashCacheCapacity := by
  obtain ⟨hright, hcache⟩ := cacheRight_empty.htlhashes hsame
  obtain ⟨inserted, hholds⟩ := hcache.holds
  exact ⟨hright, hashes_eq_plain hright hsame, hholds.bounded⟩

end

def abcIdentity : FileIdentity := ⟨64769, 1234, 3, 1700000000, 0, 1700000000, 0⟩

/-- What SHA-256 makes of `abc`, `abc` again, and their length as eight bytes. -/
def abcDigest : List UInt8 :=
  [0xa7, 0xe7, 0x9e, 0x8a, 0x85, 0xda, 0x69, 0xba, 0xd5, 0xc3, 0xfe, 0xa2, 0x09, 0x34, 0x2a, 0xc9,
    0x88, 0x58, 0xc5, 0xea, 0x71, 0x78, 0x41, 0xfb, 0x78, 0x2b, 0xaf, 0x36, 0x0a, 0xd0, 0x9c, 0xe0]

/-- One file in two processes. It cannot be read for the second. -/
def abcCalls : List HashCall :=
  [⟨fun path => if path = "/proc/7/map_files/1000-2000" then some ⟨some abcIdentity, some [97, 98, 99]⟩ else none,
      7, 4096, 8192⟩,
    ⟨fun path => if path = "/proc/8/map_files/a000-b000" then some ⟨some abcIdentity, none⟩ else none,
      8, 40960, 45056⟩]

theorem abcCalls_sameBytes : SameBytes (fun _ => [97, 98, 99]) abcCalls := by
  intro call hcall file identity bytes hfile _ hbytes
  rcases List.mem_pair.mp hcall with rfl | rfl
  · unfold HashCall.file at hfile
    dsimp only at hfile
    split at hfile
    · cases hfile
      cases hbytes
      rfl
    · cases hfile
  · unfold HashCall.file at hfile
    dsimp only at hfile
    split at hfile
    · cases hfile
      cases hbytes
    · cases hfile

theorem htlhashes_right_abc :
    List.Forall₂ (Right (fun _ => abcDigest) fun _ => [97, 98, 99]) abcCalls
        [some "a7e79e8a85da69bad5c3fea209342ac9", some "a7e79e8a85da69bad5c3fea209342ac9"] := by
  have hhashes : (htlhashes (fun _ => abcDigest) abcCalls {}).1 =
      [some "a7e79e8a85da69bad5c3fea209342ac9", some "a7e79e8a85da69bad5c3fea209342ac9"] := by
    decide +kernel
  have hright := (@htlhashes_right (fun _ => abcDigest) _ _ abcCalls_sameBytes).1
  rwa [hhashes] at hright

end Otlp

end RustProfile
