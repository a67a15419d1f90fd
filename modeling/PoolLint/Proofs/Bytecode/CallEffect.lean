import PoolLint.Proofs.Flow.Heights
import PoolLint.Proofs.Ownership.Tracking
import PoolLint.Resource.Table

/-!
# What a call does to the stack

The parameters of a descriptor are counted in a scan, and whether there is a result is read off its
end. `descriptor_exact` states that the two agree: a call takes as many values as its descriptor
lists types, and the receiver, and leaves one value unless the result is `V`.
-/

namespace PoolLint

open PoolLint.Bytecode PoolLint.Bytecode.Descriptor PoolLint.Flow

section Calls

variable {call : CallSite} {types : List (List Char)} {result : List Char} {args : Nat}

/-- A call leaves what its descriptor says. -/
theorem leaves_of_denotes (h : Denotes call.desc types result) (hresult : ')' ∉ result) :
    (Instruction.invoke call).leaves = if result = ['V'] then 0 else 1 :=
  if_congr (void_suffix_iff h hresult) rfl rfl

/-- A call can be executed if its arguments are there, and if the stack is within its limit
afterwards. -/
theorem fits_invoke_iff {m : Method} {height : Nat} (htakes : call.Takes args)
    (hroom : m.HasRoom height) : (Instruction.invoke call).Fits m height ↔
      args ≤ height ∧ m.HasRoom (height - args + (Instruction.invoke call).leaves) := by
  constructor
  · rintro ⟨⟨count, hcount, hle⟩, -, hafter⟩
    obtain rfl : args = count := CallSite.Takes.unique htakes hcount
    refine ⟨hle, ?_⟩
    by_cases hpushes : (Instruction.invoke call).pushes = true
    · exact hafter hpushes _ ⟨args, htakes, rfl⟩
    · -- nothing is pushed, and the stack was within its limit before
      have hleaves : ¬0 < (Instruction.invoke call).leaves := mt decide_eq_true hpushes
      exact HasRoom.mono hroom (by omega)
  · rintro ⟨hle, hroom'⟩
    refine ⟨⟨args, htakes, hle⟩, ?_, ?_⟩
    · intro slot hslot
      cases hslot
    · intro _ after hafter
      rw [hafter.eq htakes]
      exact hroom'

end Calls

/-- A descriptor has a parameter count exactly if it lists parameter types, and the count is their
number. It lists types in one way only. If there is no further parenthesis behind the list, then a
call with this descriptor can be executed exactly if there is an argument for every type, and one
for the receiver unless it is static, and room for a result unless that is `V`; it takes these
arguments and leaves that result. -/
theorem descriptor_exact (desc : String) :
    (∀ n, Descriptor.paramCount? desc = some n ↔
      ∃ types result, Denotes desc types result ∧ types.length = n) ∧
    (∀ types result types' result', Denotes desc types result → Denotes desc types' result' →
      types = types' ∧ result = result') ∧
    ∀ types result, Denotes desc types result → ')' ∉ result →
      (Descriptor.returnsValue desc = false ↔ result = ['V']) ∧
      ∀ call : CallSite, call.desc = desc →
        let args := types.length + if call.kind = .static then 0 else 1
        let pushed := if result = ['V'] then 0 else 1
        call.argCount? = some args ∧
        ∀ (V S : Type) (I : Interpreter V S), I.KeepsShape → ∀ m s i height (f : Frame V),
          f.Sized m height →
            Exactly (I.execute s i (.invoke call) f)
              (args ≤ height ∧ m.HasRoom (height - args + pushed))
              (Frame.SizedAfter m (height - args + pushed)) := by
  refine ⟨fun n => paramCount?_eq_some_iff, fun _ _ _ _ => Denotes.unique, ?_⟩
  intro types result h hresult
  refine ⟨returnsValue_eq_false_iff h hresult, ?_⟩
  rintro call rfl args pushed
  have htakes : call.Takes args := ⟨types, result, h, rfl⟩
  refine ⟨CallSite.argCount?_eq_some_iff.2 htakes, ?_⟩
  intro V S I hI m s i height f hf
  have hleaves : (Instruction.invoke call).leaves = pushed := leaves_of_denotes h hresult
  rw [← hleaves]
  refine (I.execute_exactly hI _ hf).mono (fits_invoke_iff htakes hf.room).symm ?_
  rintro r - ⟨after, hafter, hsized⟩
  exact hsized.of_eq (hafter.eq htakes)

/-- Takes an array of arrays, an object and a number. -/
def callOnRunner : CallSite :=
  ⟨.virtual, "app/Runner", "run", "([[ILapp/Task;J)V"⟩

/-- A method whose stack holds up to four values. -/
def fourEntries : Method where
  name := "run"
  desc := "()V"
  isStatic := true
  maxLocals := 0
  maxStack := some 4
  code := []
  handlers := []
  lines := []

/-- The call takes the receiver and one value for each of the three types, and leaves none. -/
theorem descriptor_exact_of_runner :
    Denotes callOnRunner.desc [['[', '[', 'I'], "Lapp/Task;".toList, ['J']] ['V'] ∧
      Descriptor.paramCount? callOnRunner.desc = some 3 ∧
      Descriptor.returnsValue callOnRunner.desc = false ∧
      ∃ e f, (tracker ResourceTable.parcel 0).execute .none 1 (.invoke callOnRunner)
          ⟨[], List.replicate 4 .unknown, some 4⟩ = .ok (e, f) ∧ f.Sized fourEntries 0 := by
  have hdenotes :
      Denotes callOnRunner.desc [['[', '[', 'I'], "Lapp/Task;".toList, ['J']] ['V'] := by
    have hname : ';' ∉ "app/Task".toList := by decide
    refine ⟨by decide, ?_, by decide⟩
    intro t ht
    rcases List.mem_cons.1 ht with rfl | ht
    · exact .array (.array (.primitive (by decide)))
    rcases List.mem_cons.1 ht with rfl | ht
    · exact .object hname
    · rw [List.mem_singleton.1 ht]
      exact .primitive (by decide)
  obtain ⟨hcount, -, heffect⟩ := descriptor_exact callOnRunner.desc
  obtain ⟨hreturns, hcalls⟩ := heffect _ _ hdenotes (by decide)
  obtain ⟨-, hexecutes⟩ := hcalls callOnRunner rfl
  have hsized : (⟨[], List.replicate 4 .unknown, some 4⟩ : Frame Ownership).Sized fourEntries 4 :=
    ⟨rfl, rfl, rfl, fun _ hmax => Nat.le_of_eq (Option.some.inj hmax)⟩
  obtain ⟨hsucceeds, hleaves⟩ := hexecutes _ _ (tracker ResourceTable.parcel 0)
    (tracker_keepsShape _ _) fourEntries .none 1 4 _ hsized
  obtain ⟨⟨e, f⟩, hexecute⟩ := hsucceeds ⟨by decide, fun _ _ => Nat.zero_le _⟩
  exact ⟨hdenotes, (hcount 3).2 ⟨_, _, hdenotes, rfl⟩, hreturns.2 rfl, e, f, hexecute,
    (hleaves hexecute).2⟩

end PoolLint
