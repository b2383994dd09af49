import Mathlib.Data.List.TakeWhile
import RustProfile.Callers
import RustProfile.PerfRecordSound

/-!
# Whether callers are named

The two stack walks of the kernel give return addresses as they are, and the
unwinder gives the addresses before them. Both lie in the calling function unless
the call is its last instruction.
-/

namespace RustProfile

/-! ## Words -/

theorem toNat_lt_pow : ∀ bytes : List UInt8, Bytes.toNat bytes < 256 ^ bytes.length
  | [] => by decide
  | b :: bytes => by
    have hb : b.toNat < 256 := b.toNat_lt
    have hrest := toNat_lt_pow bytes
    rw [Bytes.toNat, List.length_cons, pow_succ]
    omega

def shiftedWord (bytes : List UInt8) : UInt64 := bytes.foldr (fun b acc => (acc <<< 8) ||| b.toUInt64) 0

theorem toNat_shiftedWord : ∀ {bytes : List UInt8}, bytes.length ≤ 8 → (shiftedWord bytes).toNat = Bytes.toNat bytes
  | [], _ => rfl
  | b :: bytes, h => by
    rw [List.length_cons] at h
    have ih := toNat_shiftedWord (Nat.le_of_succ_le h)
    have hb : b.toNat < 2 ^ 8 := b.toNat_lt
    have hacc : Bytes.toNat bytes < 256 ^ 7 :=
      lt_of_lt_of_le (toNat_lt_pow bytes) (Nat.pow_le_pow_right (by decide) (Nat.le_of_succ_le_succ h))
    have hshift : Bytes.toNat bytes <<< 8 < 2 ^ 64 := by
      rw [Nat.shiftLeft_eq]
      omega
    have hcons : shiftedWord (b :: bytes) = (shiftedWord bytes <<< 8) ||| b.toUInt64 := rfl
    rw [hcons, UInt64.toNat_or, UInt64.toNat_shiftLeft, ih, UInt8.toNat_toUInt64]
    change Bytes.toNat bytes <<< 8 % 2 ^ 64 ||| b.toNat = _
    rw [Nat.mod_eq_of_lt hshift, ← Nat.shiftLeft_add_eq_or_of_lt hb, Nat.shiftLeft_eq, Bytes.toNat]
    omega

theorem readWords_encodeWords : ∀ words : List UInt64, readWords (encodeWords words) = words
  | [] => rfl
  | word :: words => by
    have hword : shiftedWord (Bytes.ofNat 8 word.toNat) = word := by
      apply UInt64.toNat_inj.mp
      rw [toNat_shiftedWord (Bytes.length_ofNat 8 _).le, Bytes.toNat_ofNat word.toNat_lt]
    have hcons : readWords (encodeWords (word :: words)) =
        shiftedWord (Bytes.ofNat 8 word.toNat) :: readWords (encodeWords words) := rfl
    rw [hcons, hword, readWords_encodeWords words]

theorem length_encodeWords (words : List UInt64) : (encodeWords words).length = 8 * words.length := by
  induction words with
  | nil => rfl
  | cons word words ih =>
    rw [show encodeWords (word :: words) = Bytes.ofNat 8 word.toNat ++ encodeWords words from rfl, List.length_append,
      Bytes.length_ofNat, ih, List.length_cons]
    omega

theorem encodeWords_take : ∀ (words : List UInt64) (n : ℕ),
    (encodeWords words).take (n * 8) = encodeWords (words.take n)
  | _, 0 => by simp [encodeWords]
  | [], n + 1 => by simp [encodeWords]
  | word :: words, n + 1 => by
    have hlen : (n + 1) * 8 = (Bytes.ofNat 8 word.toNat).length + n * 8 := by
      rw [Bytes.length_ofNat]
      omega
    rw [show encodeWords (word :: words) = Bytes.ofNat 8 word.toNat ++ encodeWords words from rfl, hlen,
      List.take_length_add_append, encodeWords_take words n]
    rfl

/-! ## Chains -/

theorem CodeFunction.Contains.bounds {function : CodeFunction} {address : UInt64} (h : function.Contains address) :
    0 < address.toNat ∧ address.toNat < 2 ^ 63 := by
  have hstart := UInt64.le_iff_toNat_le.mp h.1
  have hstop := UInt64.lt_iff_toNat_lt.mp h.2
  have hnull := function.notNull
  have huser := function.user
  omega

namespace CallSite

variable (call : CallSite)

theorem returnAddress_bounds : 0 < call.returnAddress.toNat ∧ call.returnAddress.toNat ≤ 2 ^ 63 := by
  have hbehind := UInt64.lt_iff_toNat_lt.mp call.behind
  have hends := UInt64.le_iff_toNat_le.mp call.ends
  have huser := call.function.user
  omega

theorem contains_before : call.function.Contains (call.returnAddress - 1) := by
  have hstarts := UInt64.le_iff_toNat_le.mp call.starts
  have hbehind := UInt64.lt_iff_toNat_lt.mp call.behind
  have hends := UInt64.le_iff_toNat_le.mp call.ends
  have hone : (1 : UInt64) ≤ call.returnAddress := by
    rw [UInt64.le_iff_toNat_le]
    change 1 ≤ call.returnAddress.toNat
    omega
  have hsub : (call.returnAddress - 1).toNat = call.returnAddress.toNat - 1 := UInt64.toNat_sub_of_le _ _ hone
  refine ⟨UInt64.le_iff_toNat_le.mpr ?_, UInt64.lt_iff_toNat_lt.mpr ?_⟩
  · omega
  · omega

theorem contains_return_iff : call.function.Contains call.returnAddress ↔ call.returnAddress < call.function.stop := by
  have hstart : call.function.start ≤ call.returnAddress := by
    have hstarts := UInt64.le_iff_toNat_le.mp call.starts
    have hbehind := UInt64.lt_iff_toNat_lt.mp call.behind
    rw [UInt64.le_iff_toNat_le]
    omega
  exact and_iff_right hstart

end CallSite

theorem CallChain.address_bounds (chain : CallChain) : ∀ address ∈ chain.addresses,
    0 < address.toNat ∧ address.toNat ≤ 2 ^ 63 := by
  intro address haddress
  rcases List.mem_cons.mp haddress with rfl | hcall
  · exact ⟨chain.inLeaf.bounds.1, chain.inLeaf.bounds.2.le⟩
  · obtain ⟨call, -, rfl⟩ := List.mem_map.mp hcall
    exact call.returnAddress_bounds

theorem Framehop.Yields.addresses {δ ι : Type} {framehop : Framehop δ ι} :
    ∀ {frames : List FrameAddress} {iterator : ι}, framehop.Yields frames iterator → ∀ n,
    framehop.addresses n iterator = (frames.map FrameAddress.addressForLookup).take n
  | _, _, _, 0 => by simp [Framehop.addresses]
  | [], iterator, h, n + 1 => by
    have hdone : (framehop.next iterator).1 = .done := h
    unfold Framehop.addresses
    rcases hnext : framehop.next iterator with ⟨step, rest⟩
    rw [hnext] at hdone
    obtain rfl : step = .done := hdone
    rfl
  | frame :: frames, iterator, h, n + 1 => by
    obtain ⟨hframe, hrest⟩ := h
    unfold Framehop.addresses
    rcases hnext : framehop.next iterator with ⟨step, rest⟩
    rw [hnext] at hframe hrest
    obtain rfl : step = .frame frame := hframe
    rw [List.map_cons, List.take_succ_cons, ← Framehop.Yields.addresses hrest n]

/-! ## The three lists -/

namespace Recording

variable {δ ι : Type} {recording : Recording δ ι}

theorem perfFrames_prefix (h : recording.Records) :
    recording.perfFrames <+: recording.chain.addresses ∧ recording.perfFrames.length ≤ defaultMaxFrames := by
  have hframes : recording.perfFrames = (withHead recording.chain.leaf
      (userAddresses (recording.body.words.take defaultMaxFrames))).take defaultMaxFrames := by
    unfold perfFrames
    rw [parseSample_body, h.bodyIp]
    rfl
  have hprefix : userAddresses (recording.body.words.take defaultMaxFrames) <+: recording.chain.addresses := by
    rw [← h.bodyWords]
    exact (List.take_prefix _ _).filter _
  have hhead : withHead recording.chain.leaf (userAddresses (recording.body.words.take defaultMaxFrames)) <+:
      recording.chain.addresses := by
    unfold withHead
    cases hwords : userAddresses (recording.body.words.take defaultMaxFrames) with
    | nil => exact List.prefix_append [recording.chain.leaf] _
    | cons first rest =>
      rw [hwords] at hprefix
      obtain ⟨rfl, -⟩ := List.cons_prefix_cons.mp hprefix
      rw [List.head?_cons, if_pos rfl]
      exact hprefix
  rw [hframes]
  exact ⟨(List.take_prefix _ _).trans hhead, List.length_take_le _ _⟩

theorem heapFrames_eq (h : recording.Records) :
    recording.heapFrames = recording.chain.addresses.take defaultMaxFrames := by
  have hslice : recording.event.stackSlice (defaultMaxFrames * 8) =
      encodeWords (recording.chain.addresses.take defaultMaxFrames) := by
    unfold RawEvent.stackSlice
    rw [h.eventLength, Int.toNat_natCast, ← encodeWords_take, h.eventStack, List.take_eq_take_iff]
    omega
  have hwords : (recording.chain.addresses.take defaultMaxFrames).filter (fun address =>
      address ≠ 0 && address < UInt64.ofNat (u64Max - 4095)) = recording.chain.addresses.take defaultMaxFrames := by
    refine List.filter_eq_self.mpr fun address haddress => ?_
    obtain ⟨hnull, huser⟩ := recording.chain.address_bounds address (List.mem_of_mem_take haddress)
    have hne : address ≠ 0 := by
      rintro rfl
      exact absurd hnull (by decide)
    have hlimit : (UInt64.ofNat (u64Max - 4095)).toNat = u64Max - 4095 := by decide
    have hlt : address < UInt64.ofNat (u64Max - 4095) := by
      rw [UInt64.lt_iff_toNat_lt, hlimit]
      exact lt_of_le_of_lt huser (by decide)
    rw [Bool.and_eq_true, decide_eq_true_eq, decide_eq_true_eq]
    exact ⟨hne, hlt⟩
  have hhead : (recording.chain.addresses.take defaultMaxFrames).head? = some recording.event.header.ip := by
    rw [h.eventIp]
    rfl
  unfold heapFrames parseFpStack
  simp only [hslice, readWords_encodeWords, hwords, hhead]
  simp

/-- The unwinder looks up every frame of the chain in the function that it belongs to. -/
theorem lookup_in_function (chain : CallChain) : ∀ address ∈ chain.frames.map FrameAddress.addressForLookup,
    ∃ function ∈ chain.functions, function.Contains address := by
  intro address haddress
  obtain ⟨frame, hframe, rfl⟩ := List.mem_map.mp haddress
  rcases List.mem_cons.mp hframe with rfl | hframe
  · exact ⟨chain.leafFunction, List.mem_cons_self, chain.inLeaf⟩
  · obtain ⟨call, hcall, rfl⟩ := List.mem_map.mp hframe
    exact ⟨call.function, List.mem_cons_of_mem _ (List.mem_map_of_mem hcall), call.contains_before⟩

theorem dwarfFrames_eq (h : recording.Records) : recording.dwarfFrames =
    (recording.chain.frames.map FrameAddress.addressForLookup).take defaultMaxFrames := by
  have hfound : recording.unwinder.found recording.cache recording.registers recording.stackBytes =
      (recording.chain.frames.map FrameAddress.addressForLookup).take defaultMaxFrames := by
    unfold DwarfUnwinder.found
    rw [h.resolved]
    exact h.yields.addresses defaultMaxFrames
  unfold dwarfFrames
  rw [DwarfUnwinder.unwindBytes_frames, DwarfUnwinder.collected, hfound, List.takeWhile_eq_self_iff]
  intro address haddress
  obtain ⟨function, hfunction, hcontains⟩ := lookup_in_function recording.chain address (List.mem_of_mem_take haddress)
  exact h.executable function hfunction address hcontains

/-! ## Attribution -/

theorem getElem?_of_prefix {xs ys : List UInt64} (h : xs <+: ys) {i : ℕ} {x : UInt64} (hx : xs[i]? = some x) :
    ys[i]? = some x := by
  obtain ⟨rest, rfl⟩ := h
  rw [List.getElem?_append_left (List.getElem?_eq_some_iff.mp hx).1]
  exact hx

theorem addresses_succ (chain : CallChain) (i : ℕ) :
    chain.addresses[i + 1]? = chain.calls[i]?.map CallSite.returnAddress := by
  unfold CallChain.addresses
  rw [List.getElem?_cons_succ, List.getElem?_map]

theorem lookup_succ (chain : CallChain) (i : ℕ) : (chain.frames.map FrameAddress.addressForLookup)[i + 1]? =
    chain.calls[i]?.map fun call => call.returnAddress - 1 := by
  unfold CallChain.frames
  rw [List.map_cons, List.getElem?_cons_succ, List.getElem?_map, List.getElem?_map, Option.map_map]
  rfl

/-- The addresses before the return addresses attribute every caller. -/
theorem attributes_lookup (chain : CallChain) {addresses : List UInt64}
    (h : addresses <+: chain.frames.map FrameAddress.addressForLookup) : AttributesCallers chain.calls addresses := by
  intro i call address hcall haddress
  have hlookup := getElem?_of_prefix h haddress
  rw [lookup_succ, hcall] at hlookup
  obtain rfl := Option.some.inj hlookup
  exact call.contains_before

/-- The return addresses attribute a caller if the call has code behind it. -/
theorem attributes_return {chain : CallChain} (hinside : chain.ReturnsInside) {addresses : List UInt64}
    (h : addresses <+: chain.addresses) (hlength : addresses.length ≤ defaultMaxFrames) :
    AttributesCallers chain.calls addresses := by
  intro i call address hcall haddress
  have hlt : i + 1 < addresses.length := (List.getElem?_eq_some_iff.mp haddress).1
  have hmem : call ∈ chain.calls.take (defaultMaxFrames - 1) := by
    refine List.mem_of_getElem? (i := i) ?_
    rw [List.getElem?_take_of_lt (by omega)]
    exact hcall
  have hreturn := getElem?_of_prefix h haddress
  rw [addresses_succ, hcall] at hreturn
  obtain rfl := Option.some.inj hreturn
  exact call.contains_return_iff.mpr (hinside call hmem)

theorem sameNames_of_attributes {layout : CodeLayout} {chain : CallChain}
    (hlayout : ∀ function ∈ chain.functions, function ∈ layout.functions) {xs ys : List UInt64}
    (hx : xs <+: chain.addresses) (hy : ys <+: chain.frames.map FrameAddress.addressForLookup)
    (hxs : AttributesCallers chain.calls xs) {tables : SymbolTables} {demangler : Demangler}
    {name : CodeFunction → String} (hnames : NamesByLayout layout name tables demangler) :
    SameNames tables demangler xs ys := by
  intro i x y hxi hyi
  have hxc := getElem?_of_prefix hx hxi
  have hyc := getElem?_of_prefix hy hyi
  cases i with
  | zero =>
    have hleaf : x = y := (Option.some.inj hxc).symm.trans (Option.some.inj hyc)
    rw [hleaf]
  | succ i =>
    rw [addresses_succ] at hxc
    obtain ⟨call, hcall, -⟩ := Option.map_eq_some_iff.mp hxc
    have hfunction : call.function ∈ layout.functions :=
      hlayout _ (List.mem_cons_of_mem _ (List.mem_map_of_mem (List.mem_of_getElem? hcall)))
    rw [hnames _ hfunction x (hxs i call x hcall hxi),
      hnames _ hfunction y (attributes_lookup chain hy i call y hcall hyi)]

end Recording

/-- **Callers are attributed in all modes exactly if no recorded call ends its function.** -/
theorem callers_named_iff {δ ι : Type} (recording : Recording δ ι) (h : recording.Records) :
    recording.CallersNamed ↔ recording.chain.ReturnsInside := by
  obtain ⟨hperf, hlength⟩ := Recording.perfFrames_prefix h
  have hheap := Recording.heapFrames_eq h
  have hdwarf : recording.dwarfFrames <+: recording.chain.frames.map FrameAddress.addressForLookup := by
    rw [Recording.dwarfFrames_eq h]
    exact List.take_prefix _ _
  constructor
  · intro hnamed call hcall
    -- The caller of call `i` is frame `i + 1` of the stack as the kernel takes it.
    obtain ⟨i, hi⟩ := List.mem_iff_getElem?.mp hcall
    have hlt : i < defaultMaxFrames - 1 := by
      have hsome := (List.getElem?_eq_some_iff.mp hi).1
      rw [List.length_take] at hsome
      omega
    rw [List.getElem?_take_of_lt hlt] at hi
    have haddress : recording.heapFrames[i + 1]? = some call.returnAddress := by
      rw [hheap, List.getElem?_take_of_lt (by omega), Recording.addresses_succ, hi]
      rfl
    exact call.contains_return_iff.mp (hnamed.heap i call _ hi haddress)
  · intro hinside
    have hprefix : recording.heapFrames <+: recording.chain.addresses := by
      rw [hheap]
      exact List.take_prefix _ _
    have hheapLength : recording.heapFrames.length ≤ defaultMaxFrames := by
      rw [hheap]
      exact List.length_take_le _ _
    have hperfCallers := Recording.attributes_return hinside hperf hlength
    have hheapCallers := Recording.attributes_return hinside hprefix hheapLength
    refine ⟨hperfCallers, hheapCallers, Recording.attributes_lookup _ hdwarf,
      fun tables demangler name hnames => ⟨?_, ?_⟩⟩
    · exact Recording.sameNames_of_attributes h.laidOut hperf hdwarf hperfCallers hnames
    · exact Recording.sameNames_of_attributes h.laidOut hprefix hdwarf hheapCallers hnames

/-! ## One call -/

def chainWalk (frames : List FrameAddress) : Framehop Unit (List FrameAddress) where
  iterFrames := fun _ _ _ _ => frames
  next := fun frames => (frames.head?.elim .done .frame, frames.tail)
  cache := fun _ => ()

theorem chainWalk_yields (all : List FrameAddress) : ∀ frames : List FrameAddress, (chainWalk all).Yields frames frames
  | [] => rfl
  | _ :: frames => ⟨rfl, chainWalk_yields all frames⟩

def callerFunction : CodeFunction := ⟨0x1000, 0x1100, by decide, by decide⟩

def calleeFunction : CodeFunction := ⟨0x1100, 0x1200, by decide, by decide⟩

def innerCall : CallSite := ⟨callerFunction, 0x1050, 0x1055, by decide, by decide, by decide⟩

/-- A call that never returns, at the function's end. -/
def lastCall : CallSite := ⟨callerFunction, 0x10fb, 0x1100, by decide, by decide, by decide⟩

theorem functions_disjoint : [callerFunction, calleeFunction].Pairwise fun f g => f.stop ≤ g.start ∨ g.stop ≤ f.start :=
  List.pairwise_pair.mpr (Or.inl (UInt64.le_refl _))

def oneCallChain (call : CallSite) : CallChain where
  leafFunction := calleeFunction
  leaf := 0x1110
  inLeaf := ⟨by decide, by decide⟩
  calls := [call]

def oneCall (call : CallSite) : Recording Unit (List FrameAddress) where
  layout := ⟨[callerFunction, calleeFunction], functions_disjoint⟩
  chain := oneCallChain call
  body := ⟨0x1110, 7, 7, 0, 1, [0xFFFFFFFFFFFFFE00, 0x1110, call.returnAddress], show 3 < 2 ^ 64 by decide⟩
  registerMask := 0
  event :=
    { header := { kind := .stack, unwindMode := 1, ip := 0x1110, stackLength := 16 }
      stack := encodeWords [0x1110, call.returnAddress] }
  unwinder :=
    { framehop := chainWalk (oneCallChain call).frames
      arch := .x86_64
      executableRanges := ExecutableRanges.fromMaps [⟨0x1000, 0x2000, [114, 45, 120, 112]⟩] }
  cache := ()
  registers := { ip := 0x1110, sp := 0, fp := 0, lr := 0 }
  stackBytes := []

theorem oneCall_records (call : CallSite) (hcall : call.function = callerFunction) : (oneCall call).Records where
  laidOut := by
    intro function hfunction
    rcases List.mem_cons.mp hfunction with rfl | hfunction
    · exact List.mem_cons_of_mem _ List.mem_cons_self
    · rw [List.mem_singleton.mp hfunction, hcall]
      exact List.mem_cons_self
  executable := by
    intro function hfunction address hcontains
    have hcallee : (0x1000 : UInt64) ≤ calleeFunction.start ∧ calleeFunction.stop ≤ 0x2000 := ⟨by decide, by decide⟩
    have hcaller : (0x1000 : UInt64) ≤ callerFunction.start ∧ callerFunction.stop ≤ 0x2000 := ⟨by decide, by decide⟩
    have hrange : (0x1000 : UInt64) ≤ function.start ∧ function.stop ≤ 0x2000 := by
      rcases List.mem_cons.mp hfunction with rfl | hfunction
      · exact hcallee
      · rw [List.mem_singleton.mp hfunction, hcall]
        exact hcaller
    rw [show (oneCall call).unwinder.executableRanges = ExecutableRanges.fromMaps _ from rfl,
      ExecutableRanges.fromMaps_contains_iff]
    refine ⟨_, List.mem_cons_self, by decide, UInt64.le_trans hrange.1 hcontains.1, ?_⟩
    exact UInt64.lt_of_lt_of_le hcontains.2 hrange.2
  bodyIp := rfl
  bodyWords := by
    have huser : call.returnAddress < perfContextMax := by
      rw [UInt64.lt_iff_toNat_lt]
      exact lt_of_le_of_lt call.returnAddress_bounds.2 (by decide)
    have hleaf : (0x1110 : UInt64) < perfContextMax := by decide
    have hmarker : ¬ (0xFFFFFFFFFFFFFE00 : UInt64) < perfContextMax := by decide
    change [0xFFFFFFFFFFFFFE00, 0x1110, call.returnAddress].filter (· < perfContextMax) = [0x1110, call.returnAddress]
    simp [huser, hleaf, hmarker]
  eventIp := rfl
  eventStack := rfl
  eventLength := by
    rw [show (oneCall call).event.stack = encodeWords [0x1110, call.returnAddress] from rfl, length_encodeWords]
    rfl
  resolved := by
    change (oneCall innerCall).unwinder.normalizeCodeAddress 0x1110 = some 0x1110
    decide +kernel
  yields := chainWalk_yields _ _

theorem callers_named_innerCall : (oneCall innerCall).CallersNamed := by
  refine (callers_named_iff (oneCall innerCall) (oneCall_records innerCall rfl)).mpr fun call hcall => ?_
  rw [List.mem_singleton.mp (List.mem_of_mem_take hcall)]
  decide

/-- The frame-pointer modes give an address of the function that follows the caller. -/
theorem lastCall_attributed_to_next : (oneCall lastCall).Records ∧
    (oneCall lastCall).perfFrames = [0x1110, 0x1100] ∧ (oneCall lastCall).heapFrames = [0x1110, 0x1100] ∧
    (oneCall lastCall).dwarfFrames = [0x1110, 0x10ff] ∧ calleeFunction.Contains 0x1100 ∧
    ¬ (oneCall lastCall).CallersNamed := by
  have hheap : (oneCall lastCall).heapFrames = [0x1110, 0x1100] := by decide +kernel
  refine ⟨oneCall_records lastCall rfl, by decide +kernel, hheap, by decide +kernel, ⟨by decide, by decide⟩, ?_⟩
  intro hnamed
  have hcontains := hnamed.heap 0 lastCall 0x1100 rfl (by rw [hheap]; rfl)
  exact absurd hcontains.2 (by decide)

end RustProfile
