import PoolLint.Files.Collect
import PoolLint.Proofs.Json.Reading
import PoolLint.Proofs.Serial.Encoding

/-!
# Class files are read back

The JSON that is written for a class file is one of the ways to write it, with all fields in their
declared order (`classFileOf_classFileJson`). Whichever way is taken, and however the text is laid
out, the class file is read back from it (`parseUnitNamed_classFileJson`).
-/

namespace PoolLint.Serial

open PoolLint.Bytecode FieldSpec
open Json (Scalar Writable TextOf)

/-! ## What is written is an encoding -/

theorem ObjectOf.of_given {specs : List FieldSpec} {fields : List (String × Json)}
    (h : Given specs fields) : ObjectOf specs (.record fields) := by
  refine @ObjectOf.mk specs fields [] fields h ?_ ?_
  · intro f hf
    cases hf
  · rw [List.append_nil]

theorem ListOf.of_forall {α : Type} {holds : α → Json → Prop} {encode : α → Json} {as : List α}
    (h : ∀ a ∈ as, holds a (encode a)) : ListOf holds as (.list encode as) :=
  .mk (List.forall₂_map_right_iff.2 (List.forall₂_same.2 h))

theorem callOf_callJson (c : CallSite) : CallOf c (callJson c) :=
  .of_given (.keep rfl (.keep rfl (.keep rfl (.keep rfl .nil))))

theorem fieldRefOf_fieldRefJson (f : FieldRef) : FieldRefOf f (fieldRefJson f) :=
  .of_given (.keep rfl (.keep rfl (.keep rfl .nil)))

theorem fieldAccessOf_fieldAccessJson (field : FieldRef) (isStatic : Bool) :
    FieldAccessOf field isStatic (fieldAccessJson field isStatic) :=
  .of_given (.keep (fieldRefOf_fieldRefJson field) (.keep rfl .nil))

theorem instructionOf_instructionJson (instr : Instruction) :
    InstructionOf instr (instructionJson instr) := by
  cases instr with
  | getField field isStatic => exact .mk (fieldAccessOf_fieldAccessJson field isStatic)
  | putField field isStatic => exact .mk (fieldAccessOf_fieldAccessJson field isStatic)
  | invoke call => exact .mk (callOf_callJson call)
  | ifZero target => exact .mk (.of_given (.keep rfl .nil))
  | ifCmp target => exact .mk (.of_given (.keep rfl .nil))
  | switch targets default => exact .mk (.of_given (.keep rfl (.keep rfl .nil)))
  | _ => exact rfl

theorem handlerOf_handlerJson (h : Handler) : HandlerOf h (handlerJson h) :=
  .of_given (.keep rfl (.keep rfl (.keep rfl (.keep rfl .nil))))

theorem methodOf_methodJson (m : Method) : MethodOf m (methodJson m) :=
  .of_given (.keep rfl (.keep rfl (.keep rfl (.keep rfl (.keep rfl
    (.keep (.of_forall fun instr _ => instructionOf_instructionJson instr)
      (.keep (ListOf.of_forall fun h _ => handlerOf_handlerJson h) (.keep rfl .nil))))))))

/-- What is written for a class file is one of the ways to write it. -/
theorem classFileOf_classFileJson (unit : ClassFile) : ClassFileOf unit (classFileJson unit) :=
  .of_given (.keep rfl (.keep rfl
    (.keep (ListOf.of_forall fun m _ => methodOf_methodJson m) .nil)))

/-! ## Encodings can be written -/

theorem writable_nullable {α : Type} {encode : α → Json} (h : ∀ a, Writable (encode a))
    (a? : Option α) : Writable (.nullable encode a?) := by
  cases a? with
  | none => exact .scalar .null
  | some a => exact h a

theorem writable_list {α : Type} {encode : α → Json} (h : ∀ a, Writable (encode a))
    (as : List α) : Writable (.list encode as) := by
  refine .array ?_
  intro v hv
  obtain ⟨a, -, rfl⟩ := List.mem_map.1 hv
  exact h a

theorem writable_text (s : String) : Writable (.text s) :=
  .scalar (.text s)

theorem writable_nat (n : Nat) : Writable (.nat n) :=
  .scalar (.integer n)

theorem writable_bool (b : Bool) : Writable (.bool b) :=
  .scalar (.bool b)

theorem writable_variant {name : String} {content : Json} (h : Writable content) :
    Writable (variantJson name content) := by
  refine .record ?_
  intro f hf
  obtain rfl := List.mem_singleton.1 hf
  exact h

theorem VariantOf.writable {name : String} {holds : Json → Prop} {v : Json}
    (h : VariantOf name holds v) (hholds : ∀ w, holds w → Writable w) : Writable v := by
  cases h with
  | mk hcontent => exact writable_variant (hholds _ hcontent)

theorem ListOf.writable {α : Type} {holds : α → Json → Prop} {as : List α} {v : Json}
    (h : ListOf holds as v) (hholds : ∀ a w, holds a w → Writable w) : Writable v := by
  cases h with
  | @mk items hitems =>
    refine .array ?_
    intro w hw
    obtain ⟨i, hi, rfl⟩ := List.mem_iff_getElem.1 hw
    exact hholds _ _ (hitems.get (hitems.length_eq ▸ hi) hi)

theorem Given.writable {specs : List FieldSpec} {given : List (String × Json)}
    (h : Given specs given) (hspecs : ∀ spec ∈ specs, ∀ w, spec.holds w → Writable w) :
    ∀ f ∈ given, Writable f.2 := by
  induction h with
  | nil => simp
  | keep hholds _ ih =>
    intro f hf
    rcases List.mem_cons.1 hf with rfl | hf
    · exact hspecs _ List.mem_cons_self _ hholds
    · exact ih (fun spec hspec => hspecs spec (List.mem_cons_of_mem _ hspec)) f hf
  | leaveOut _ _ ih => exact ih fun spec hspec => hspecs spec (List.mem_cons_of_mem _ hspec)

theorem ObjectOf.writable {specs : List FieldSpec} {v : Json} (h : ObjectOf specs v)
    (hspecs : ∀ spec ∈ specs, ∀ w, spec.holds w → Writable w) : Writable v := by
  cases h with
  | @mk given unknown fields hgiven hunknown hperm =>
    refine .record ?_
    intro f hf
    rcases List.mem_append.1 (hperm.mem_iff.1 hf) with hf | hf
    · exact hgiven.writable hspecs f hf
    · exact .scalar (hunknown f hf).2

theorem CallOf.writable {c : CallSite} {v : Json} (h : CallOf c v) : Writable v := by
  refine ObjectOf.writable h ?_
  simp [required, writable_text]

theorem FieldRefOf.writable {f : FieldRef} {v : Json} (h : FieldRefOf f v) : Writable v := by
  refine ObjectOf.writable h ?_
  simp [required, writable_text]

theorem FieldAccessOf.writable {field : FieldRef} {isStatic : Bool} {v : Json}
    (h : FieldAccessOf field isStatic v) : Writable v := by
  have hfield : ∀ w, FieldRefOf field w → Writable w := fun _ => FieldRefOf.writable
  refine ObjectOf.writable h ?_
  simpa [required, defaulted, writable_bool] using hfield

theorem InstructionOf.writable {instr : Instruction} {v : Json} (h : InstructionOf instr v) :
    Writable v := by
  cases instr with
  | getField field isStatic => exact VariantOf.writable h fun _ => FieldAccessOf.writable
  | putField field isStatic => exact VariantOf.writable h fun _ => FieldAccessOf.writable
  | invoke call => exact VariantOf.writable h fun _ => CallOf.writable
  | ifZero target =>
    refine VariantOf.writable h fun _ htarget => ObjectOf.writable htarget ?_
    simp [required, writable_nat]
  | ifCmp target =>
    refine VariantOf.writable h fun _ htarget => ObjectOf.writable htarget ?_
    simp [required, writable_nat]
  | switch targets default =>
    refine VariantOf.writable h fun _ hswitch => ObjectOf.writable hswitch ?_
    simp [required, writable_nat, writable_list]
  | const value =>
    obtain rfl := h
    refine writable_variant ?_
    cases value with
    | null => exact writable_text "null"
    | int n => exact writable_variant (.scalar (.integer n))
    | string s => exact writable_variant (writable_text s)
    | classRef s => exact writable_variant (writable_text s)
  | load | store | goto =>
    obtain rfl := h
    exact writable_variant (writable_nat _)
  | new | checkCast | unary | binary =>
    obtain rfl := h
    exact writable_variant (writable_text _)
  | nop | dup | pop | swap | arrayLoad | arrayStore | ret | retValue | throw =>
    obtain rfl := h
    exact writable_text _

theorem HandlerOf.writable {h : Handler} {v : Json} (hv : HandlerOf h v) : Writable v := by
  refine ObjectOf.writable hv ?_
  simp [required, defaulted, writable_nat, writable_nullable, writable_text]

theorem MethodOf.writable {m : Method} {v : Json} (hv : MethodOf m v) : Writable v := by
  have hcode : ∀ w, ListOf InstructionOf m.code w → Writable w :=
    fun _ hw => hw.writable fun _ _ => InstructionOf.writable
  have hhandlers : ∀ w, ListOf HandlerOf m.handlers w → Writable w :=
    fun _ hw => hw.writable fun _ _ => HandlerOf.writable
  have hlines : Writable (.list (.nullable .nat) m.lines) :=
    writable_list (writable_nullable writable_nat) m.lines
  refine ObjectOf.writable hv ?_
  simpa [required, defaulted, writable_text, writable_nat, writable_bool, writable_nullable,
    hlines] using And.intro hcode hhandlers

theorem ClassFileOf.writable {unit : ClassFile} {v : Json} (hv : ClassFileOf unit v) :
    Writable v := by
  have hmethods : ∀ w, ListOf MethodOf unit.methods w → Writable w :=
    fun _ hw => hw.writable fun _ _ => MethodOf.writable
  refine ObjectOf.writable hv ?_
  simpa [required, defaulted, writable_text, writable_nullable] using hmethods

/-! ## Reading back -/

theorem parseUnitNamed_of_textOf {unit : ClassFile} {v : Json} {text : String}
    (hwidth : unit.InWidth) (hv : ClassFileOf unit v) (htext : TextOf v text) (path : String) :
    parseUnitNamed text "json" path = .ok unit := by
  have hread : readJsonClassFile text = some unit := by
    unfold readJsonClassFile
    rw [Json.parse?_of_textOf htext, Option.bind_some, decodeClassFile_eq hv hwidth]
  have hformat : UnitFormat.ofName? "json" = some .json := rfl
  unfold parseUnitNamed parseUnit
  rw [hformat]
  dsimp only
  rw [hread, Option.elim_some]

/-- A class file is read back from the JSON that is written for it, in both layouts. In whichever
way else the objects of it are written, with their fields in another order, with unknown fields or
without those that hold their default, it can be laid out as text, and is read back from every text
of it. -/
theorem parseUnitNamed_classFileJson {unit : ClassFile} (hwidth : unit.InWidth) (path : String) :
    parseUnitNamed (classFileJson unit).compact "json" path = .ok unit ∧
    parseUnitNamed (classFileJson unit).pretty "json" path = .ok unit ∧
    ∀ v, ClassFileOf unit v → TextOf v v.compact ∧ TextOf v v.pretty ∧
      ∀ text, TextOf v text → parseUnitNamed text "json" path = .ok unit := by
  have hwritten := classFileOf_classFileJson unit
  refine ⟨?_, ?_, ?_⟩
  · exact parseUnitNamed_of_textOf hwidth hwritten hwritten.writable.textOf_compact path
  · exact parseUnitNamed_of_textOf hwidth hwritten hwritten.writable.textOf_pretty path
  · intro v hv
    refine ⟨hv.writable.textOf_compact, hv.writable.textOf_pretty, ?_⟩
    intro text htext
    exact parseUnitNamed_of_textOf hwidth hv htext path

/-! ### A class file that is written in another way -/

/-- A getter that reads a field of its instance. -/
def getter : ClassFile where
  name := "Point"
  sourceFile := none
  methods := [{
    name := "x"
    desc := "()I"
    isStatic := false
    maxLocals := 1
    maxStack := none
    code := [.load 0, .getField ⟨"Point", "x", "I"⟩ false, .retValue]
    handlers := []
    lines := [] }]

/-- The fields of its method, without those that hold their default. -/
def getterFields : List (String × Json) :=
  [("name", .text "x"), ("desc", .text "()I"), ("max_locals", .nat 1),
    ("instructions", .array [variantJson "load" (.nat 0),
      variantJson "get_field" (.record [("field", fieldRefJson ⟨"Point", "x", "I"⟩)]),
      .text "return_value"])]

/-- A field that no method has. -/
def versionField : String × Json :=
  ("version", .decimal "1.5")

/-- The fields of the class file and of its method from last to first, and an unknown one. -/
def reversedGetter : Json :=
  .record [("methods", .array [.record (getterFields ++ [versionField]).reverse]),
    ("name", .text "Point")]

theorem scalar_versionField : Scalar versionField.2 := by
  have hdigits : ∀ c : Char, c.isDigit = true → Json.Digits [c] := by
    intro c hc
    refine ⟨List.cons_ne_nil c [], ?_⟩
    intro d hd
    obtain rfl := List.mem_singleton.1 hd
    exact hc
  exact .decimal (.decimal (.digits (hdigits '1' rfl) (by decide)) (.present (hdigits '5' rfl))
    .absent (by decide))

theorem methodOf_getterFields : ∀ m ∈ getter.methods,
    MethodOf m (.record (getterFields ++ [versionField]).reverse) := by
  intro m hm
  obtain rfl := List.mem_singleton.1 hm
  have hgetField : InstructionOf (.getField ⟨"Point", "x", "I"⟩ false) (variantJson "get_field"
      (.record [("field", fieldRefJson ⟨"Point", "x", "I"⟩)])) :=
    .mk (.of_given (.keep (fieldRefOf_fieldRefJson _) (.leaveOut rfl .nil)))
  refine @ObjectOf.mk _ getterFields [versionField] _ ?_ ?_ (List.reverse_perm _)
  · exact .keep rfl (.keep rfl (.leaveOut rfl (.keep rfl (.leaveOut rfl (.keep
      (.mk (.cons rfl (.cons hgetField (.cons rfl .nil))))
      (.leaveOut rfl (.leaveOut rfl .nil)))))))
  · intro f hf
    obtain rfl := List.mem_singleton.1 hf
    exact ⟨by decide, scalar_versionField⟩

theorem classFileOf_reversedGetter : ClassFileOf getter reversedGetter := by
  refine @ObjectOf.mk _ [_, _] [] _ ?_ ?_ (List.Perm.swap _ _ [])
  · exact .keep rfl (.leaveOut rfl (.keep (.mk (.cons (methodOf_getterFields _
      (List.mem_singleton_self _)) .nil)) .nil))
  · intro f hf
    cases hf

theorem inWidth_getter : getter.InWidth := by
  intro m hm
  obtain rfl := List.mem_singleton.1 hm
  have hslot : (Instruction.load 0).InWidth := by
    unfold Instruction.InWidth
    decide
  refine ⟨by decide, by decide, ?_, List.forall_mem_nil _, by decide⟩
  exact List.forall_mem_cons.2 ⟨hslot, List.forall_mem_cons.2 ⟨trivial,
    List.forall_mem_cons.2 ⟨trivial, List.forall_mem_nil _⟩⟩⟩

/-- Read back from a text with fields in another order, an unknown one, and others left out. -/
theorem parseUnitNamed_classFileJson_of_getter : getter.InWidth ∧
    ClassFileOf getter reversedGetter ∧ TextOf reversedGetter reversedGetter.pretty ∧
      parseUnitNamed reversedGetter.pretty "json" "point.json" = .ok getter := by
  obtain ⟨-, -, hread⟩ := parseUnitNamed_classFileJson inWidth_getter "point.json"
  obtain ⟨-, hpretty, htext⟩ := hread reversedGetter classFileOf_reversedGetter
  exact ⟨inWidth_getter, classFileOf_reversedGetter, hpretty, htext _ hpretty⟩

end PoolLint.Serial
