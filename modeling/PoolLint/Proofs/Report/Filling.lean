import PoolLint.Report.Code

/-!
# Filling in one parameter

A placeholder gives way to the value of its parameter (`replaceFrom_placeholder`), and text without
an opening brace stays as it is (`replaceFrom_plain`). The messages of findings have one placeholder
each, so a message tells for which name it was filled in (`FindingKind.message_injective`).
-/

namespace PoolLint

namespace Template

variable {key value text rest : List Char}

/-- The characters of an occurrence are skipped. -/
theorem replaceFrom_length (pattern value text rest : List Char) :
    replaceFrom pattern value text.length (text ++ rest) = replaceFrom pattern value 0 rest := by
  induction text with
  | nil => rfl
  | cons c text ih => exact ih

theorem replaceFrom_placeholder (key value rest : List Char) :
    replaceFrom (placeholder key) value 0 (placeholder key ++ rest) =
      value ++ replaceFrom (placeholder key) value 0 rest := by
  have hfound : (placeholder key).isPrefixOf (placeholder key ++ rest) = true :=
    List.isPrefixOf_iff_prefix.2 (List.prefix_append _ _)
  have hskipped := replaceFrom_length (placeholder key) value (key ++ ['\x7d']) rest
  show (if (placeholder key).isPrefixOf (placeholder key ++ rest) then
    value ++ replaceFrom (placeholder key) value (key ++ ['\x7d']).length (key ++ ['\x7d'] ++ rest)
    else _) = _
  rw [if_pos hfound, hskipped]

theorem replaceFrom_plain (key value rest : List Char) (htext : '\x7b' ∉ text) :
    replaceFrom (placeholder key) value 0 (text ++ rest) =
      text ++ replaceFrom (placeholder key) value 0 rest := by
  induction text with
  | nil => rfl
  | cons c text ih =>
    have hc : '\x7b' ≠ c := fun h => htext (h ▸ List.mem_cons_self)
    have hrest : '\x7b' ∉ text := fun h => htext (List.mem_cons_of_mem c h)
    have hother : (placeholder key).isPrefixOf (c :: (text ++ rest)) = false := by
      simp [placeholder, List.isPrefixOf, hc]
    rw [List.cons_append, replaceFrom, hother, ih hrest]
    rfl

/-- A template with one placeholder and no other brace that opens. -/
theorem render_single {before after : String} (hbefore : '\x7b' ∉ before.toList)
    (hafter : '\x7b' ∉ after.toList) (key value : String) :
    render [(key, value)] (before ++ ("\x7b" ++ key ++ "\x7d") ++ after) =
      before ++ value ++ after := by
  have htemplate : (before ++ ("\x7b" ++ key ++ "\x7d") ++ after).toList =
      before.toList ++ (placeholder key.toList ++ after.toList) := by
    simp [placeholder]
  have hrest : replaceFrom (placeholder key.toList) value.toList 0 after.toList = after.toList := by
    have h := replaceFrom_plain key.toList value.toList [] hafter
    rwa [List.append_nil, replaceFrom, List.append_nil] at h
  rw [← String.toList_inj]
  unfold render
  rw [String.toList_ofList]
  show replaceFrom (placeholder key.toList) value.toList 0 _ = _
  rw [htemplate, replaceFrom_plain _ _ _ hbefore, replaceFrom_placeholder, hrest]
  simp

end Template

namespace FindingKind

/-- The message of a finding about a kind with the given name. -/
def message (f : FindingKind) (name : String) : String :=
  Template.render [("kind", name)] f.entry.messageTemplate

/-- The name of the kind stands in the message as it is. -/
theorem exists_message (f : FindingKind) :
    ∃ before after, ∀ name, f.message name = before ++ name ++ after := by
  cases f with
  | leaked =>
    have htemplate : CodeEntry.leaked.messageTemplate =
        "This " ++ ("\x7b" ++ "kind" ++ "\x7d") ++
          " should be recycled after use with #recycle()" := rfl
    refine ⟨"This ", " should be recycled after use with #recycle()", ?_⟩
    intro name
    show Template.render _ CodeEntry.leaked.messageTemplate = _
    rw [htemplate, Template.render_single (by simp) (by simp)]
  | alreadyRecycled =>
    have htemplate : CodeEntry.alreadyRecycled.messageTemplate =
        "This " ++ ("\x7b" ++ "kind" ++ "\x7d") ++ " has already been recycled" := rfl
    refine ⟨"This ", " has already been recycled", ?_⟩
    intro name
    show Template.render _ CodeEntry.alreadyRecycled.messageTemplate = _
    rw [htemplate, Template.render_single (by simp) (by simp)]

theorem message_injective (f : FindingKind) : Function.Injective f.message := by
  intro name name' h
  obtain ⟨before, after, hmessage⟩ := f.exists_message
  rw [hmessage, hmessage, ← String.toList_inj] at h
  simpa [String.toList_inj] using h

theorem code_injective : Function.Injective code := by
  intro f g h
  cases f <;> cases g <;> first | rfl | exact absurd h (by decide)

/-- No finding lacks the parameter of its message. -/
theorem missingParams_draft (f : FindingKind) (name : String) :
    (f.draft name).missingParams = [] := by
  have hkeys : Template.keys f.entry.messageTemplate = ["kind"] := by
    cases f <;> decide
  have hmissing : (f.draft name).missingParams =
      (Template.keys f.entry.messageTemplate).filter
        fun key => !List.any [("kind", name)] (·.1 == key) := rfl
  rw [hmissing, hkeys]
  simp

end FindingKind

end PoolLint
