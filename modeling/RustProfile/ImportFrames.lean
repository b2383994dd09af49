import Mathlib.Data.List.Destutter
import RustProfile.ImportRun

/-!
# The frames of an imported sample

The loop over a call chain drops every address that was pushed last. It is meant
for an instruction pointer that the chain repeats, but the return addresses of a
recursion repeat as well.
-/

namespace RustProfile

/-- The addresses of the call chain that are neither zero nor markers. -/
def SampleRecord.userAddresses (sample : SampleRecord) : List UInt64 := (sample.callchain.getD []).filter isUserAddress

/-- The instruction pointer and the user addresses, of which only the first may repeat it. -/
def SampleRecord.userStack (sample : SampleRecord) : List UInt64 :=
  match sample.ip.filter isUserAddress with
  | some ip => if sample.userAddresses.head? = some ip then sample.userAddresses else ip :: sample.userAddresses
  | none => sample.userAddresses

/-- What is pushed differs from the address before it. -/
theorem pushAddresses_eq : ∀ (callchain pushed : List UInt64) (last : UInt64),
    pushAddresses callchain (pushed ++ [last]) =
      pushed ++ (callchain.filter isUserAddress).destutter' (· ≠ ·) last
  | [], pushed, last => rfl
  | address :: callchain, pushed, last => by
    unfold pushAddresses
    rw [List.getLast?_concat]
    by_cases huser : isUserAddress address
    · rw [List.filter_cons_of_pos huser]
      by_cases hsame : last = address
      · rw [if_neg (by simp [hsame]), pushAddresses_eq callchain, List.destutter'_cons_neg _ (by simpa using hsame)]
      · rw [if_pos ⟨huser, by simpa using hsame⟩, pushAddresses_eq callchain, List.destutter'_cons_pos _ hsame,
          List.append_assoc, List.singleton_append]
    · rw [List.filter_cons_of_neg huser, if_neg fun h => huser h.1, pushAddresses_eq callchain]

theorem pushAddresses_nil : ∀ callchain : List UInt64,
    pushAddresses callchain [] = (callchain.filter isUserAddress).destutter (· ≠ ·)
  | [] => rfl
  | address :: callchain => by
    unfold pushAddresses
    by_cases huser : isUserAddress address
    · rw [if_pos ⟨huser, by simp⟩, List.filter_cons_of_pos huser, pushAddresses_eq callchain []]
      rfl
    · rw [if_neg fun h => huser h.1, List.filter_cons_of_neg huser, pushAddresses_nil callchain]

theorem addresses_eq_destutter (sample : SampleRecord) : sample.addresses = sample.userStack.destutter (· ≠ ·) := by
  unfold SampleRecord.addresses SampleRecord.userStack
  cases hip : sample.ip.filter isUserAddress with
  | none => exact pushAddresses_nil _
  | some ip =>
    have hpush := pushAddresses_eq (sample.callchain.getD []) [] ip
    rw [List.nil_append, List.nil_append] at hpush
    refine hpush.trans ?_
    change sample.userAddresses.destutter' (· ≠ ·) ip = _
    dsimp only
    split
    · rename_i hhead
      obtain ⟨rest, hrest⟩ := List.head?_eq_some_iff.mp hhead
      rw [hrest, List.destutter'_cons_neg _ (by simp)]
      rfl
    · rfl

/-- The instruction pointer never repeats the first address, so only repeats in the chain count. -/
theorem userStack_isChain_iff (sample : SampleRecord) :
    sample.userStack.IsChain (· ≠ ·) ↔ sample.userAddresses.IsChain (· ≠ ·) := by
  unfold SampleRecord.userStack
  cases sample.ip.filter isUserAddress with
  | none => exact Iff.rfl
  | some ip =>
    dsimp only
    split
    · exact Iff.rfl
    · rename_i hhead
      rw [List.isChain_cons]
      refine and_iff_right ?_
      rintro address haddress rfl
      exact hhead haddress

theorem ofAddresses_injective : Function.Injective Stack.ofAddresses := by
  intro a b h
  exact List.map_injective_iff.mpr (fun _ _ => congrArg Frame.address) (congrArg Stack.frames h)

/-- **What enters a window is the user's stack exactly if no two addresses in a row of the call chain are equal.** -/
theorem import_keeps_frames_iff (command : ImportCommand) (importing : Importing) (index timestamp : ℕ)
    (thread : UInt32 × UInt32) (sample : SampleRecord) :
    (importing.add command index timestamp thread sample.addresses).1.stack = Stack.ofAddresses sample.userStack ↔
      sample.userAddresses.IsChain (· ≠ ·) := by
  have hstack : (importing.add command index timestamp thread sample.addresses).1.stack =
      Stack.ofAddresses sample.addresses := rfl
  rw [hstack, ofAddresses_injective.eq_iff, addresses_eq_destutter, List.destutter_eq_self_iff, userStack_isChain_iff]

def recursiveSample : SampleRecord where
  timestamp := some 0
  pid := some 7
  tid := some 7
  ip := some 0x1000
  callchain := some [0x1000, 0x2000, 0x2000, 0x3000]

theorem recursion_imported_once :
    recursiveSample.userStack = [0x1000, 0x2000, 0x2000, 0x3000] ∧
      ∀ (command : ImportCommand) (importing : Importing) (index timestamp : ℕ) (thread : UInt32 × UInt32),
        (importing.add command index timestamp thread recursiveSample.addresses).1.stack =
          Stack.ofAddresses [0x1000, 0x2000, 0x3000] ∧
        (importing.add command index timestamp thread recursiveSample.addresses).1.stack ≠
          Stack.ofAddresses recursiveSample.userStack := by
  have huser : recursiveSample.userStack = [0x1000, 0x2000, 0x2000, 0x3000] := by decide
  have haddresses : recursiveSample.addresses = [0x1000, 0x2000, 0x3000] := by decide
  refine ⟨huser, fun command importing index timestamp thread => ?_⟩
  have hstack : (importing.add command index timestamp thread recursiveSample.addresses).1.stack =
      Stack.ofAddresses [0x1000, 0x2000, 0x3000] := by
    rw [haddresses]
    rfl
  rw [hstack, huser]
  exact ⟨rfl, by decide⟩

end RustProfile
