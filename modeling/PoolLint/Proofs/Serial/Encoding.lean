import Mathlib.Algebra.Group.Int.Defs
import Mathlib.Algebra.Group.Nat.Defs
import PoolLint.Proofs.Serial.Fields

/-!
# The ways to write a class file

Every record of a class file is an object that may be written in several ways; names, numbers and
lists are written in one way (`ClassFileOf`). What is written in any of these ways is decoded as the
class file, if its numbers fit into the words that hold them (`decodeClassFile_eq`).
-/

namespace PoolLint.Bytecode

/-- Slots and targets fit into a word, and constants into a word with a sign. -/
def Instruction.InWidth : Instruction → Prop
  | .const (.int n) => -2 ^ 63 ≤ n ∧ n < 2 ^ 63
  | .load i | .store i | .goto i | .ifZero i | .ifCmp i => i < 2 ^ 64
  | .switch targets default => (∀ i ∈ targets, i < 2 ^ 64) ∧ default < 2 ^ 64
  | _ => True

/-- The indices fit into a word. -/
structure Handler.InWidth (h : Handler) : Prop where
  start : h.start < 2 ^ 64
  stop : h.stop < 2 ^ 64
  target : h.target < 2 ^ 64

/-- Sizes and indices fit into a word, and line numbers into half a word. -/
structure Method.InWidth (m : Method) : Prop where
  maxLocals : m.maxLocals < 2 ^ 64
  maxStack : ∀ n ∈ m.maxStack, n < 2 ^ 64
  code : ∀ instr ∈ m.code, instr.InWidth
  handlers : ∀ h ∈ m.handlers, h.InWidth
  lines : ∀ line ∈ m.lines, ∀ n ∈ line, n < 2 ^ 32

/-- All numbers fit into the words that hold them. -/
def ClassFile.InWidth (unit : ClassFile) : Prop :=
  ∀ m ∈ unit.methods, m.InWidth

end PoolLint.Bytecode

namespace PoolLint.Serial

open PoolLint.Bytecode FieldSpec

/-! ## Encodings -/

/-- An array of values that stand for these, one after another. -/
inductive ListOf {α : Type} (holds : α → Json → Prop) (as : List α) : Json → Prop
  | mk {items : List Json} : List.Forall₂ holds as items → ListOf holds as (.array items)

/-- An object for a call. -/
def CallOf (c : CallSite) : Json → Prop :=
  ObjectOf [required "kind" (· = .text (dispatchName c.kind)), required "owner" (· = .text c.owner),
    required "name" (· = .text c.name), required "desc" (· = .text c.desc)]

/-- An object for a field reference. -/
def FieldRefOf (f : FieldRef) : Json → Prop :=
  ObjectOf [required "owner" (· = .text f.owner), required "name" (· = .text f.name),
    required "desc" (· = .text f.desc)]

/-- An object for a field access. -/
def FieldAccessOf (field : FieldRef) (isStatic : Bool) : Json → Prop :=
  ObjectOf [required "field" (FieldRefOf field),
    defaulted "is_static" (fun b v => v = .bool b) isStatic false]

/-- An object for the target of a conditional jump. -/
def TargetOf (target : Nat) : Json → Prop :=
  ObjectOf [required "target" (· = .nat target)]

/-- An object for the targets of a switch. -/
def SwitchOf (targets : List Nat) (default : Nat) : Json → Prop :=
  ObjectOf [required "targets" (· = .list .nat targets), required "default" (· = .nat default)]

/-- A variant with a content. -/
inductive VariantOf (name : String) (holds : Json → Prop) : Json → Prop
  | mk {content : Json} : holds content → VariantOf name holds (variantJson name content)

/-- A value for an instruction: of the operands only records may be written in several ways. -/
def InstructionOf : Instruction → Json → Prop
  | .getField field isStatic => VariantOf "get_field" (FieldAccessOf field isStatic)
  | .putField field isStatic => VariantOf "put_field" (FieldAccessOf field isStatic)
  | .invoke call => VariantOf "invoke" (CallOf call)
  | .ifZero target => VariantOf "if" (TargetOf target)
  | .ifCmp target => VariantOf "if_cmp" (TargetOf target)
  | .switch targets default => VariantOf "switch" (SwitchOf targets default)
  | instr => (· = instructionJson instr)

/-- An object for a handler. -/
def HandlerOf (h : Handler) : Json → Prop :=
  ObjectOf [required "start" (· = .nat h.start), required "end" (· = .nat h.stop),
    required "handler" (· = .nat h.target),
    defaulted "catch_type" (fun o v => v = .nullable .text o) h.catchType none]

/-- An object for a method. -/
def MethodOf (m : Method) : Json → Prop :=
  ObjectOf [required "name" (· = .text m.name), required "desc" (· = .text m.desc),
    defaulted "is_static" (fun b v => v = .bool b) m.isStatic false,
    required "max_locals" (· = .nat m.maxLocals),
    defaulted "max_stack" (fun o v => v = .nullable .nat o) m.maxStack none,
    required "instructions" (ListOf InstructionOf m.code),
    defaulted "handlers" (ListOf HandlerOf) m.handlers [],
    defaulted "lines" (fun lines v => v = .list (.nullable .nat) lines) m.lines []]

/-- An object for a class file. -/
def ClassFileOf (unit : ClassFile) : Json → Prop :=
  ObjectOf [required "name" (· = .text unit.name),
    defaulted "source_file" (fun o v => v = .nullable .text o) unit.sourceFile none,
    defaulted "methods" (ListOf MethodOf) unit.methods []]

/-! ## Decoding numbers and lists -/

theorem unsigned?_natCast {bits n : Nat} (h : n < 2 ^ bits) :
    unsigned? bits (n : Int) = some n := by
  have hwidth : fitsUnsigned bits (n : Int) = true := by
    unfold fitsUnsigned capacity
    rw [Nat.one_shiftLeft]
    simp only [Bool.and_eq_true, decide_eq_true_eq]
    omega
  unfold unsigned?
  rw [if_pos hwidth, Int.toNat_natCast]

theorem signed?_eq {n : Int} (h : -2 ^ 63 ≤ n ∧ n < 2 ^ 63) : signed? 64 n = some n := by
  have hwidth : fitsSigned 64 n = true := by
    unfold fitsSigned capacity
    rw [Nat.one_shiftLeft]
    simp only [Bool.and_eq_true, decide_eq_true_eq]
    omega
  unfold signed?
  rw [if_pos hwidth]

theorem nat_nat {bits n : Nat} (h : n < 2 ^ bits) : jsonFormat.nat bits (.nat n) = some n := by
  unfold jsonFormat Json.nat
  exact unsigned?_natCast h

theorem index_nat {n : Nat} (h : n < 2 ^ 64) : jsonFormat.index (.nat n) = some n := by
  rw [Format.index]
  exact nat_nat h

section

variable {α : Type} {encode : α → Json} {decode : Json → Option α}

theorem nullable_eq {a? : Option α} (h : ∀ a ∈ a?, decode (encode a) = some a)
    (hnull : ∀ a, encode a ≠ .null) :
    jsonFormat.nullable decode (.nullable encode a?) = some a? := by
  cases a? with
  | none => rfl
  | some a =>
    -- only a value that is not written as null can be told from an absent one
    have hsome : jsonFormat.optional (encode a) = some (some (encode a)) := by
      unfold jsonFormat
      dsimp only
      split
      · rename_i heq
        exact absurd heq (hnull a)
      · rfl
    unfold Format.nullable Json.nullable
    simp only [hsome, Option.bind_eq_bind, Option.bind_some, h a rfl]
    rfl

theorem listOf_eq {holds : α → Json → Prop} {as : List α} {v : Json} (h : ListOf holds as v)
    (hdecode : ∀ a ∈ as, ∀ v, holds a v → decode v = some a) :
    jsonFormat.listOf decode v = some as := by
  cases h with
  | @mk items hitems =>
    show items.mapM decode = some as
    refine mapM_eq_some (List.Forall₂.flip ?_)
    refine List.forall₂_iff_get.2 ⟨hitems.length_eq, ?_⟩
    intro i hi hi'
    exact hdecode _ (List.get_mem _ _) _ (hitems.get hi hi')

end

theorem listOf_list {α : Type} (encode : α → Json) (as : List α) :
    ListOf (fun a v => v = encode a) as (.list encode as) :=
  .mk (List.forall₂_map_right_iff.2 (List.forall₂_same.2 fun _ _ => rfl))

/-! ## Decoding fields -/

section Fields

variable {r : Record Json} {i : Nat} {name : String}

theorem required_text {s : String} (h : (required name (· = .text s)).Fills (r.given? i)) :
    r.required i jsonFormat.text = some s := by
  refine required_eq h ?_
  rintro _ rfl
  rfl

theorem required_index {n : Nat} (h : (required name (· = .nat n)).Fills (r.given? i))
    (hn : n < 2 ^ 64) : r.required i jsonFormat.index = some n := by
  refine required_eq h ?_
  rintro _ rfl
  exact index_nat hn

theorem withDefault_bool {b : Bool}
    (h : (defaulted name (fun b v => v = .bool b) b false).Fills (r.given? i)) :
    r.withDefault i false jsonFormat.bool = some b := by
  refine withDefault_eq h ?_
  rintro _ rfl
  rfl

theorem optionalField_eq {α : Type} {encode : α → Json} {decode : Json → Option α} {a? : Option α}
    (h : (defaulted name (fun a? v => v = .nullable encode a?) a? none).Fills (r.given? i))
    (hdecode : ∀ a ∈ a?, decode (encode a) = some a) (hnull : ∀ a, encode a ≠ .null) :
    jsonFormat.optionalField r i decode = some a? := by
  refine withDefault_eq h ?_
  rintro _ rfl
  exact nullable_eq hdecode hnull

theorem optionalField_text {s? : Option String}
    (h : (defaulted name (fun s? v => v = .nullable .text s?) s? none).Fills (r.given? i)) :
    jsonFormat.optionalField r i jsonFormat.text = some s? :=
  optionalField_eq h (fun _ _ => rfl) fun _ => Json.noConfusion

end Fields

/-! ## Decoding records -/

theorem callOf_eq {c : CallSite} {v : Json} (h : CallOf c v) :
    ∃ r, JsonFormat.record callFields v = some r ∧ callOfRecord jsonFormat r = some c := by
  obtain ⟨r, hr, hfields⟩ := h.record_eq (by decide : callFields.Nodup)
  have hkind : r.required 0 (jsonFormat.bareVariant dispatchOfName) = some c.kind := by
    refine required_eq (hfields 0 _ rfl) ?_
    rintro _ rfl
    cases c.kind <;> rfl
  have howner := required_text (hfields 1 _ rfl)
  have hname := required_text (hfields 2 _ rfl)
  have hdesc := required_text (hfields 3 _ rfl)
  refine ⟨r, hr, ?_⟩
  unfold callOfRecord
  rw [hkind, howner, hname, hdesc]
  rfl

theorem fieldRefOf_eq {f : FieldRef} {v : Json} (h : FieldRefOf f v) :
    decodeFieldRef jsonFormat v = some f := by
  obtain ⟨r, hr, hfields⟩ := h.record_eq (by decide : fieldRefFields.Nodup)
  have howner := required_text (hfields 0 _ rfl)
  have hname := required_text (hfields 1 _ rfl)
  have hdesc := required_text (hfields 2 _ rfl)
  have hrecord : jsonFormat.record "FieldRef" fieldRefFields v = some r := hr
  unfold decodeFieldRef
  rw [hrecord]
  simp only [Option.bind_eq_bind, Option.bind_some, howner, hname, hdesc]
  rfl

/-! ## Decoding instructions -/

theorem tag_variant (name : String) (content : Json) :
    jsonFormat.tag (variantJson name content) = some name := by
  rfl

theorem content_variant (name : String) (content : Json) :
    jsonFormat.content (variantJson name content) = some content := by
  rfl

theorem variantRecord_variant (names : List String) (name : String) (content : Json) :
    jsonFormat.variantRecord names (variantJson name content) =
      JsonFormat.record names content := by
  rfl

theorem contentRecord_variant (type : String) (names : List String) (name : String)
    (content : Json) : jsonFormat.contentRecord type names (variantJson name content) =
      JsonFormat.record names content := by
  rfl

section Instructions

variable {name : String} {content : Json}

theorem decodeLiteral_eq {value : Literal} (h : (Instruction.const value).InWidth) :
    decodeLiteral jsonFormat (literalJson value) = some value := by
  cases value with
  | null => rfl
  | int n =>
    have hint : jsonFormat.int 64 (.integer n) = some n := signed?_eq h
    unfold decodeLiteral literalJson
    simp only [tag_variant, content_variant, Option.bind_eq_bind, Option.bind_some, hint]
    rfl
  | string s => rfl
  | classRef s => rfl

theorem fieldAccessOf_eq {field : FieldRef} {isStatic : Bool}
    (h : FieldAccessOf field isStatic content) :
    decodeFieldAccess jsonFormat (variantJson name content) = some (field, isStatic) := by
  obtain ⟨r, hr, hfields⟩ := h.record_eq (by decide : fieldAccessFields.Nodup)
  have hfield : r.required 0 (decodeFieldRef jsonFormat) = some field :=
    required_eq (hfields 0 _ rfl) fun _ => fieldRefOf_eq
  have hstatic := withDefault_bool (hfields 1 _ rfl)
  have hrecord : jsonFormat.variantRecord fieldAccessFields (variantJson name content) = some r :=
    hr
  unfold decodeFieldAccess
  rw [hrecord]
  simp only [Option.bind_eq_bind, Option.bind_some, hfield, hstatic]
  rfl

theorem targetOf_eq {target : Nat} (h : TargetOf target content) (htarget : target < 2 ^ 64) :
    decodeTarget jsonFormat (variantJson name content) = some target := by
  obtain ⟨r, hr, hfields⟩ := h.record_eq (by decide : ["target"].Nodup)
  have hrecord : jsonFormat.variantRecord ["target"] (variantJson name content) = some r := hr
  unfold decodeTarget
  rw [hrecord]
  exact required_index (hfields 0 _ rfl) htarget

theorem switchOf_eq {targets : List Nat} {default : Nat} (h : SwitchOf targets default content)
    (htargets : ∀ i ∈ targets, i < 2 ^ 64) (hdefault : default < 2 ^ 64) :
    ∃ r, JsonFormat.record ["targets", "default"] content = some r ∧
      r.required 0 (jsonFormat.listOf jsonFormat.index) = some targets ∧
      r.required 1 jsonFormat.index = some default := by
  obtain ⟨r, hr, hfields⟩ := h.record_eq (by decide : ["targets", "default"].Nodup)
  refine ⟨r, hr, required_eq (hfields 0 _ rfl) ?_, required_index (hfields 1 _ rfl) hdefault⟩
  rintro _ rfl
  refine listOf_eq (listOf_list .nat targets) ?_
  rintro i hi _ rfl
  exact index_nat (htargets i hi)

theorem decodeInstruction_index {i : Nat} (h : jsonFormat.index content = some i) :
    decodeInstruction jsonFormat (variantJson "load" content) = some (.load i) ∧
      decodeInstruction jsonFormat (variantJson "store" content) = some (.store i) ∧
      decodeInstruction jsonFormat (variantJson "goto" content) = some (.goto i) := by
  unfold decodeInstruction
  simp only [tag_variant, content_variant, Option.bind_eq_bind, Option.bind_some, h]
  exact ⟨rfl, rfl, rfl⟩

end Instructions

theorem instructionOf_eq {instr : Instruction} {v : Json} (h : InstructionOf instr v)
    (hwidth : instr.InWidth) : decodeInstruction jsonFormat v = some instr := by
  cases instr with
  | nop | dup | pop | swap | arrayLoad | arrayStore | ret | retValue | throw | new | checkCast =>
    obtain rfl := h
    rfl
  | unary op =>
    obtain rfl := h
    cases op <;> rfl
  | binary op =>
    obtain rfl := h
    cases op <;> rfl
  | const value =>
    obtain rfl := h
    have hliteral := decodeLiteral_eq hwidth
    unfold decodeInstruction instructionJson
    simp only [tag_variant, content_variant, Option.bind_eq_bind, Option.bind_some, hliteral]
    rfl
  | load slot =>
    obtain rfl := h
    exact (decodeInstruction_index (index_nat hwidth)).1
  | store slot =>
    obtain rfl := h
    exact (decodeInstruction_index (index_nat hwidth)).2.1
  | goto target =>
    obtain rfl := h
    exact (decodeInstruction_index (index_nat hwidth)).2.2
  | getField field isStatic =>
    obtain ⟨haccess⟩ := h
    unfold decodeInstruction
    simp only [tag_variant, Option.bind_eq_bind, Option.bind_some, fieldAccessOf_eq haccess]
    rfl
  | putField field isStatic =>
    obtain ⟨haccess⟩ := h
    unfold decodeInstruction
    simp only [tag_variant, Option.bind_eq_bind, Option.bind_some, fieldAccessOf_eq haccess]
    rfl
  | invoke call =>
    obtain ⟨hcall⟩ := h
    obtain ⟨r, hr, hcall⟩ := callOf_eq hcall
    unfold decodeInstruction
    simp only [tag_variant, contentRecord_variant, Option.bind_eq_bind, Option.bind_some, hr,
      hcall]
    rfl
  | ifZero target =>
    obtain ⟨htarget⟩ := h
    unfold decodeInstruction
    simp only [tag_variant, Option.bind_eq_bind, Option.bind_some, targetOf_eq htarget hwidth]
    rfl
  | ifCmp target =>
    obtain ⟨htarget⟩ := h
    unfold decodeInstruction
    simp only [tag_variant, Option.bind_eq_bind, Option.bind_some, targetOf_eq htarget hwidth]
    rfl
  | switch targets default =>
    obtain ⟨hswitch⟩ := h
    obtain ⟨r, hr, htargets, hdefault⟩ := switchOf_eq hswitch hwidth.1 hwidth.2
    unfold decodeInstruction
    simp only [tag_variant, variantRecord_variant, Option.bind_eq_bind, Option.bind_some, hr,
      htargets, hdefault]
    rfl

/-! ## Decoding methods and class files -/

theorem handlerOf_eq {h : Handler} {v : Json} (hv : HandlerOf h v) (hwidth : h.InWidth) :
    decodeHandler jsonFormat v = some h := by
  obtain ⟨r, hr, hfields⟩ := hv.record_eq (by decide : handlerFields.Nodup)
  have hstart := required_index (hfields 0 _ rfl) hwidth.start
  have hstop := required_index (hfields 1 _ rfl) hwidth.stop
  have htarget := required_index (hfields 2 _ rfl) hwidth.target
  have hcatch := optionalField_text (hfields 3 _ rfl)
  have hrecord : jsonFormat.record "ExceptionHandler" handlerFields v = some r := hr
  unfold decodeHandler
  simp only [Option.bind_eq_bind, Option.bind_some, hrecord, hstart, hstop, htarget, hcatch]
  rfl

theorem methodOf_eq {m : Method} {v : Json} (hv : MethodOf m v) (hwidth : m.InWidth) :
    decodeMethod jsonFormat v = some m := by
  obtain ⟨r, hr, hfields⟩ := hv.record_eq (by decide : methodFields.Nodup)
  have hname := required_text (hfields 0 _ rfl)
  have hdesc := required_text (hfields 1 _ rfl)
  have hstatic := withDefault_bool (hfields 2 _ rfl)
  have hlocals := required_index (hfields 3 _ rfl) hwidth.maxLocals
  have hstack : jsonFormat.optionalField r 4 jsonFormat.index = some m.maxStack :=
    optionalField_eq (hfields 4 _ rfl) (fun n hn => index_nat (hwidth.maxStack n hn))
      fun _ => Json.noConfusion
  have hcode : r.required 5 (jsonFormat.listOf (decodeInstruction jsonFormat)) = some m.code := by
    refine required_eq (hfields 5 _ rfl) fun v hv => listOf_eq hv ?_
    intro instr hinstr v hv
    exact instructionOf_eq hv (hwidth.code instr hinstr)
  have hhandlers : r.withDefault 6 [] (jsonFormat.listOf (decodeHandler jsonFormat)) =
      some m.handlers := by
    refine withDefault_eq (hfields 6 _ rfl) fun v hv => listOf_eq hv ?_
    intro h hh v hv
    exact handlerOf_eq hv (hwidth.handlers h hh)
  have hlines : r.withDefault 7 [] (jsonFormat.listOf (jsonFormat.nullable (jsonFormat.nat 32))) =
      some m.lines := by
    refine withDefault_eq (hfields 7 _ rfl) ?_
    rintro _ rfl
    refine listOf_eq (listOf_list (.nullable .nat) m.lines) ?_
    rintro line hline _ rfl
    exact nullable_eq (fun n hn => nat_nat (hwidth.lines line hline n hn)) fun _ => Json.noConfusion
  have hrecord : jsonFormat.record "Method" methodFields v = some r := hr
  unfold decodeMethod
  simp only [Option.bind_eq_bind, Option.bind_some, hrecord, hname, hdesc, hstatic, hlocals, hstack,
    hcode, hhandlers, hlines]
  rfl

/-- In whichever of these ways a class file is written, it is decoded as itself. -/
theorem decodeClassFile_eq {unit : ClassFile} {v : Json} (hv : ClassFileOf unit v)
    (hwidth : unit.InWidth) : decodeClassFile jsonFormat v = some unit := by
  obtain ⟨r, hr, hfields⟩ := hv.record_eq (by decide : classFileFields.Nodup)
  have hname := required_text (hfields 0 _ rfl)
  have hsource := optionalField_text (hfields 1 _ rfl)
  have hmethods : r.withDefault 2 [] (jsonFormat.listOf (decodeMethod jsonFormat)) =
      some unit.methods := by
    refine withDefault_eq (hfields 2 _ rfl) fun v hv => listOf_eq hv ?_
    intro m hm v hv
    exact methodOf_eq hv (hwidth m hm)
  have hrecord : jsonFormat.record "ClassUnit" classFileFields v = some r := hr
  unfold decodeClassFile
  simp only [Option.bind_eq_bind, Option.bind_some, hrecord, hname, hsource, hmethods]
  rfl

end PoolLint.Serial
