import PoolLint.Ownership.Verdict
import PoolLint.Proofs.Flow.Origin
import PoolLint.Proofs.Flow.Stability

/-!
# One execution of the tracker

What the tracker does to its record and to the values of a frame when it executes a single
instruction. A record only grows (`tracker_accumulates`); it grows at a call by what the call
does with its arguments, and where a value is stored into the heap or returned, by that value
(`tracker_record`). Which frames make it grow is said exactly, for each of its parts, by
`recycled_execute`, `mem_escapes_execute` and `mem_doubleReleases_execute`.
-/

namespace PoolLint

open PoolLint.Bytecode PoolLint.Flow

/-! ## Records -/

theorem mem_insertIndex {i j : Nat} {is : List Nat} : j ∈ insertIndex i is ↔ j = i ∨ j ∈ is := by
  induction is with
  | nil => simp [insertIndex]
  | cons k is ih =>
    rw [insertIndex]
    split_ifs with hlt heq
    · exact List.mem_cons
    · subst heq
      simp
    · rw [List.mem_cons, ih, List.mem_cons]
      exact or_left_comm

namespace Evidence

/-- Everything the first record notes, the second one notes. -/
structure Within (e e' : Evidence) : Prop where
  recycled : e.recycled = true → e'.recycled = true
  escapes : ∀ i ∈ e.escapes, i ∈ e'.escapes
  doubleReleases : ∀ i ∈ e.doubleReleases, i ∈ e'.doubleReleases

theorem Within.refl (e : Evidence) : Within e e :=
  ⟨id, fun _ h => h, fun _ h => h⟩

theorem Within.trans {a b c : Evidence} (hab : Within a b) (hbc : Within b c) : Within a c :=
  ⟨fun h => hbc.recycled (hab.recycled h), fun i h => hbc.escapes i (hab.escapes i h),
    fun i h => hbc.doubleReleases i (hab.doubleReleases i h)⟩

theorem within_escapeAt (e : Evidence) (i : Nat) : Within e (e.escapeAt i) :=
  ⟨id, fun _ h => mem_insertIndex.2 (.inr h), fun _ h => h⟩

theorem within_doubleReleaseAt (e : Evidence) (i : Nat) : Within e (e.doubleReleaseAt i) :=
  ⟨id, fun _ h => h, fun _ h => mem_insertIndex.2 (.inr h)⟩

theorem within_leave (e : Evidence) (i : Nat) (v : Ownership) : Within e (e.leave i v) := by
  unfold leave
  split_ifs
  · exact within_escapeAt e i
  · exact .refl e

end Evidence

/-! ## Dispatch -/

section Dispatch

variable {kind : ResourceKind} {site : CallSite}

theorem hasReceiver_of_isRecycleCall (h : Tracker.isRecycleCall kind site = true) :
    site.kind.hasReceiver = true := by
  have hdynamic : site.kind.isDynamic = true := (Bool.and_eq_true_iff.1 h).1
  cases hkind : site.kind with
  | static =>
    rw [hkind] at hdynamic
    cases hdynamic
  | virtual | special | interface => rfl

/-- A call that preserves identity is static, so all it takes are arguments in the proper sense. -/
theorem hasReceiver_of_preservesIdentity (h : kind.preservesIdentity site = true) :
    site.kind.hasReceiver = false := by
  have hstatic : site.kind = .static := of_decide_eq_true (Bool.and_eq_true_iff.1 h).1
  rw [hstatic]
  rfl

end Dispatch

/-! ## The arguments of a call -/

namespace Tracker

variable {kind : ResourceKind} {site : CallSite} {i first pos : Nat} {args : List Ownership}
  {e : Evidence}

theorem within_inspectArgs :
    e.Within (inspectArgs kind site i first pos args e) := by
  induction args generalizing pos e with
  | nil => exact .refl e
  | cons a rest ih =>
    cases a with
    | unknown => exact ih
    | tracked =>
      rw [inspectArgs]
      split_ifs
      · exact .refl e
      · exact (e.within_escapeAt i).trans ih
      · exact ih
    | released => exact (e.within_doubleReleaseAt i).trans ih

theorem recycled_inspectArgs :
    (inspectArgs kind site i first pos args e).recycled = e.recycled := by
  induction args generalizing pos e with
  | nil => rfl
  | cons a rest ih =>
    cases a with
    | unknown => exact ih
    | tracked =>
      rw [inspectArgs]
      split_ifs
      · rfl
      · exact ih
      · exact ih
    | released => exact ih

/-- A call is noted as an escape if it is handed the instance in a place other than the
receiver's and is not known to leave it with its owner. -/
theorem mem_escapes_inspectArgs {j : Nat} :
    j ∈ (inspectArgs kind site i first pos args e).escapes ↔ j ∈ e.escapes ∨
      j = i ∧ kind.preservesIdentity site = false ∧
        ∃ k, args[k]? = some .tracked ∧ first ≤ pos + k := by
  induction args generalizing pos e with
  | nil => simp [inspectArgs]
  | cons a rest ih =>
    -- the head stands at `pos` itself, the others one further on
    have hrest : (∃ k, (a :: rest)[k]? = some .tracked ∧ first ≤ pos + k) ↔
        a = .tracked ∧ first ≤ pos ∨ ∃ k, rest[k]? = some .tracked ∧ first ≤ pos + 1 + k := by
      constructor
      · rintro ⟨k, hk, hfirst⟩
        cases k with
        | zero => exact .inl ⟨Option.some.inj hk, hfirst⟩
        | succ k => exact .inr ⟨k, hk, by omega⟩
      · rintro (⟨rfl, hfirst⟩ | ⟨k, hk, hfirst⟩)
        · exact ⟨0, rfl, hfirst⟩
        · exact ⟨k + 1, hk, by omega⟩
    rw [hrest]
    cases a with
    | unknown => simp [inspectArgs, ih]
    | tracked =>
      rw [inspectArgs]
      split_ifs with hfirst hpreserves
      · simp [hpreserves]
      · rw [ih]
        simp [Evidence.escapeAt, mem_insertIndex, hfirst, hpreserves]
        tauto
      · rw [ih]
        simp [hfirst]
    | released => simp [inspectArgs, ih, Evidence.doubleReleaseAt]

/-- A call is noted as a use after release if it is handed a released value, unless it is known
to leave the instance with its owner and its inspection has ended before that argument. -/
theorem mem_doubleReleases_inspectArgs {j : Nat} :
    j ∈ (inspectArgs kind site i first pos args e).doubleReleases ↔ j ∈ e.doubleReleases ∨
      j = i ∧ ∃ k, args[k]? = some .released ∧ (kind.preservesIdentity site = true →
        ∀ l < k, args[l]? = some .tracked → pos + l < first) := by
  induction args generalizing pos e with
  | nil => simp [inspectArgs]
  | cons a rest ih =>
    -- the head stands at `pos` itself, and every later argument is behind it
    have hrest : (∃ k, (a :: rest)[k]? = some .released ∧ (kind.preservesIdentity site = true →
          ∀ l < k, (a :: rest)[l]? = some .tracked → pos + l < first)) ↔
        a = .released ∨ (kind.preservesIdentity site = true → a = .tracked → pos < first) ∧
          ∃ k, rest[k]? = some .released ∧ (kind.preservesIdentity site = true →
            ∀ l < k, rest[l]? = some .tracked → pos + 1 + l < first) := by
      constructor
      · rintro ⟨k, hk, hbefore⟩
        cases k with
        | zero => exact .inl (Option.some.inj hk)
        | succ k =>
          refine .inr ⟨?_, k, hk, ?_⟩
          · rintro hpreserves rfl
            exact hbefore hpreserves 0 (by omega) rfl
          · intro hpreserves l hl hl'
            have hlt := hbefore hpreserves (l + 1) (by omega) hl'
            omega
      · rintro (rfl | ⟨hhead, k, hk, hbefore⟩)
        · exact ⟨0, rfl, fun _ l hl => absurd hl (Nat.not_lt_zero l)⟩
        · refine ⟨k + 1, hk, ?_⟩
          intro hpreserves l hl hl'
          cases l with
          | zero => exact hhead hpreserves (Option.some.inj hl')
          | succ l =>
            have hlt := hbefore hpreserves l (by omega) hl'
            omega
    rw [hrest]
    cases a with
    | unknown => simp [inspectArgs, ih]
    | tracked =>
      rw [inspectArgs]
      split_ifs with hfirst hpreserves
      · simp [hpreserves, Nat.not_lt.2 hfirst]
      · rw [ih]
        simp [Evidence.escapeAt, hpreserves]
      · rw [ih]
        simp [Nat.lt_of_not_le hfirst]
    | released =>
      rw [inspectArgs, ih]
      simp [Evidence.doubleReleaseAt, mem_insertIndex]
      tauto

/-! ## Calls -/

variable {obtainAt : Nat} {f : Frame Ownership}

theorem call_obtain : call kind obtainAt e obtainAt site args f = (e, .tracked, f) :=
  if_pos rfl

theorem call_release (hi : i ≠ obtainAt) (hcall : isRecycleCall kind site = true) :
    call kind obtainAt e i site [.tracked] f =
      ({ e with recycled := true }, .released, f.map markReleased) := by
  unfold call
  rw [if_neg hi, if_pos]
  rw [hcall]
  rfl

theorem call_use (hi : i ≠ obtainAt)
    (hcall : ¬(isRecycleCall kind site = true ∧ args = [.tracked])) :
    call kind obtainAt e i site args f =
      (inspectArgs kind site i (if site.kind.hasReceiver then 1 else 0) 0 args e, .unknown, f) := by
  unfold call
  rw [if_neg hi, if_neg]
  rw [Bool.and_eq_true, decide_eq_true_eq]
  exact hcall

theorem recycled_call : (call kind obtainAt e i site args f).1.recycled = true ↔
    e.recycled = true ∨ i ≠ obtainAt ∧ isRecycleCall kind site = true ∧ args = [.tracked] := by
  by_cases hi : i = obtainAt
  · subst hi
    rw [call_obtain]
    simp
  · by_cases hcall : isRecycleCall kind site = true ∧ args = [.tracked]
    · obtain ⟨hcall, rfl⟩ := hcall
      rw [call_release hi hcall]
      simp [hi, hcall]
    · rw [call_use hi hcall, recycled_inspectArgs]
      tauto

/-- A call notes an escape if it is handed the tracked instance in a place other than the
receiver's, unless it yields the instance or is known to leave it with its owner. -/
theorem mem_escapes_call {j : Nat} : j ∈ (call kind obtainAt e i site args f).1.escapes ↔
    j ∈ e.escapes ∨ j = i ∧ i ≠ obtainAt ∧ kind.preservesIdentity site = false ∧
      ∃ k, args[k]? = some .tracked ∧ (if site.kind.hasReceiver then 1 else 0) ≤ k := by
  by_cases hi : i = obtainAt
  · subst hi
    rw [call_obtain]
    simp
  · by_cases hcall : isRecycleCall kind site = true ∧ args = [.tracked]
    · obtain ⟨hcall, rfl⟩ := hcall
      rw [call_release hi hcall, hasReceiver_of_isRecycleCall hcall, if_pos rfl]
      -- all that a release is handed is its receiver
      have hnone : ¬∃ k, [Ownership.tracked][k]? = some .tracked ∧ 1 ≤ k := by
        rintro ⟨k, hk, hle⟩
        have hlt : k < 1 := (List.getElem?_eq_some_iff.1 hk).1
        omega
      exact (or_iff_left fun h => hnone h.2.2.2).symm
    · rw [call_use hi hcall, mem_escapes_inspectArgs]
      simp [hi]

/-- A call notes a use after release if it is handed a released value, unless it yields the
instance, or is known to leave it with its owner and is handed a tracked one before. -/
theorem mem_doubleReleases_call {j : Nat} :
    j ∈ (call kind obtainAt e i site args f).1.doubleReleases ↔
      j ∈ e.doubleReleases ∨ j = i ∧ i ≠ obtainAt ∧ ∃ k : Nat, args[k]? = some .released ∧
        (kind.preservesIdentity site = true → ∀ l < k, args[l]? ≠ some .tracked) := by
  by_cases hi : i = obtainAt
  · subst hi
    rw [call_obtain]
    simp
  · by_cases hcall : isRecycleCall kind site = true ∧ args = [.tracked]
    · obtain ⟨hcall, rfl⟩ := hcall
      rw [call_release hi hcall]
      have hnone : ∀ k : Nat, [Ownership.tracked][k]? ≠ some .released := by
        intro k hk
        cases List.mem_singleton.1 (List.mem_of_getElem? hk)
      simp only [hnone, false_and, exists_false, and_false, or_false]
    · rw [call_use hi hcall, mem_doubleReleases_inspectArgs]
      -- where the inspection may end early there is no receiver
      have hreceiver : ∀ k, (kind.preservesIdentity site = true → ∀ l < k,
            args[l]? = some .tracked → 0 + l < if site.kind.hasReceiver then 1 else 0) ↔
          (kind.preservesIdentity site = true → ∀ l < k, args[l]? ≠ some .tracked) := by
        intro k
        apply forall_congr'
        intro hpreserves
        rw [hasReceiver_of_preservesIdentity hpreserves]
        simp
      simp only [hreceiver, ne_eq, hi, not_false_eq_true, true_and]

theorem within_call : e.Within (call kind obtainAt e i site args f).1 := by
  by_cases hi : i = obtainAt
  · subst hi
    rw [call_obtain]
    exact .refl e
  · by_cases hcall : isRecycleCall kind site = true ∧ args = [.tracked]
    · obtain ⟨hcall, rfl⟩ := hcall
      rw [call_release hi hcall]
      exact ⟨fun _ => rfl, fun _ h => h, fun _ h => h⟩
    · rw [call_use hi hcall]
      exact within_inspectArgs

/-- A release leaves every place an instance that was one before, and no other place. -/
theorem isInstance_markReleased (v : Ownership) :
    (markReleased v).isInstance = v.isInstance := by
  cases v <;> rfl

end Tracker

/-! ## Instructions -/

section Execute

variable {kind : ResourceKind} {obtainAt i : Nat} {instr : Instruction} {e e' : Evidence}
  {f f' : Frame Ownership}

theorem pushFresh_record (h : (tracker kind obtainAt).pushFresh e i instr f = .ok (e', f')) :
    e' = e := by
  obtain ⟨g, -, hg⟩ := bind_eq_ok.1 h
  exact (Prod.mk.inj (Except.ok.inj hg)).1.symm

/-- Only a value that is stored into the heap or returned is noted. -/
theorem effect_record (h : (tracker kind obtainAt).effect e i instr f = .ok (e', f')) :
    (instr.handsOver = true → ∃ v, f.value? (.entry 0) = some v ∧ e' = e.leave i v) ∧
      (instr.handsOver = false → e' = e) := by
  have hkept : ∀ {g : Frame Ownership},
      (Pure.pure (e, g) : Except FrameError _) = .ok (e', f') → e' = e := by
    intro g hg
    exact (Prod.mk.inj (Except.ok.inj hg)).1.symm
  have hpushed : ∀ {g : Frame Ownership},
      (tracker kind obtainAt).pushFresh e i instr g = .ok (e', f') → e' = e := pushFresh_record
  have htop : ∀ {v g}, f.pop = .ok (v, g) → f.value? (.entry 0) = some v := by
    intro v g hpop
    unfold Frame.pop at hpop
    split at hpop
    · rename_i hstack
      obtain ⟨rfl, -⟩ := Prod.mk.inj (Except.ok.inj hpop)
      simp [Frame.value?, hstack]
    · cases hpop
  cases instr with
  | nop | goto | ret | invoke => exact ⟨nofun, fun _ => hkept h⟩
  | const | new => exact ⟨nofun, fun _ => hpushed h⟩
  | load slot =>
    obtain ⟨v, -, h⟩ := bind_eq_ok.1 h
    obtain ⟨g, -, h⟩ := bind_eq_ok.1 h
    exact ⟨nofun, fun _ => hkept h⟩
  | store slot =>
    obtain ⟨v, -, h⟩ := bind_eq_ok.1 h
    obtain ⟨g, -, h⟩ := bind_eq_ok.1 h
    exact ⟨nofun, fun _ => hkept h⟩
  | dup =>
    obtain ⟨v, -, h⟩ := bind_eq_ok.1 h
    obtain ⟨g, -, h⟩ := bind_eq_ok.1 h
    exact ⟨nofun, fun _ => hkept h⟩
  | pop | ifZero | switch | throw | ifCmp | checkCast =>
    obtain ⟨v, -, h⟩ := bind_eq_ok.1 h
    exact ⟨nofun, fun _ => hkept h⟩
  | swap =>
    obtain ⟨top, -, h⟩ := bind_eq_ok.1 h
    obtain ⟨below, -, h⟩ := bind_eq_ok.1 h
    obtain ⟨g, -, h⟩ := bind_eq_ok.1 h
    obtain ⟨g', -, h⟩ := bind_eq_ok.1 h
    exact ⟨nofun, fun _ => hkept h⟩
  | getField field isStatic =>
    cases isStatic with
    | true => exact ⟨nofun, fun _ => hpushed h⟩
    | false =>
      obtain ⟨v, -, h⟩ := bind_eq_ok.1 h
      exact ⟨nofun, fun _ => hpushed h⟩
  | arrayLoad | binary | unary =>
    obtain ⟨v, -, h⟩ := bind_eq_ok.1 h
    exact ⟨nofun, fun _ => hpushed h⟩
  | putField field isStatic =>
    refine ⟨fun _ => ?_, nofun⟩
    obtain ⟨⟨v, g⟩, hpop, h⟩ := bind_eq_ok.1 h
    refine ⟨v, htop hpop, ?_⟩
    cases isStatic with
    | true => exact (Prod.mk.inj (Except.ok.inj h)).1.symm
    | false =>
      obtain ⟨below, -, h⟩ := bind_eq_ok.1 h
      exact (Prod.mk.inj (Except.ok.inj h)).1.symm
  | arrayStore =>
    refine ⟨fun _ => ?_, nofun⟩
    obtain ⟨⟨v, g⟩, hpop, h⟩ := bind_eq_ok.1 h
    obtain ⟨below, -, h⟩ := bind_eq_ok.1 h
    exact ⟨v, htop hpop, (Prod.mk.inj (Except.ok.inj h)).1.symm⟩
  | retValue =>
    refine ⟨fun _ => ?_, nofun⟩
    obtain ⟨⟨v, g⟩, hpop, h⟩ := bind_eq_ok.1 h
    exact ⟨v, htop hpop, (Prod.mk.inj (Except.ok.inj h)).1.symm⟩

/-- What an execution adds to the record: at a call what the call does with its arguments, and
elsewhere a value that is stored into the heap or returned. -/
theorem tracker_record (h : (tracker kind obtainAt).execute e i instr f = .ok (e', f')) :
    (∃ site args g, instr = .invoke site ∧ f.args? site = some args ∧
      e' = (Tracker.call kind obtainAt e i site args g).1) ∨
    (instr.handsOver = true ∧ ∃ v, f.value? (.entry 0) = some v ∧ e' = e.leave i v) ∨
    (instr.call? = none ∧ instr.handsOver = false ∧ e' = e) := by
  -- calls are the one kind of instruction that is not executed by its effect
  by_cases hinvoke : ∃ site, instr = .invoke site
  · obtain ⟨site, rfl⟩ := hinvoke
    obtain ⟨argCount, args, g, hcount, hpop, hcall⟩ := Interpreter.execute_invoke h
    exact .inl ⟨site, args, g, rfl, Frame.args?_of_popN hcount hpop, hcall⟩
  · right
    obtain ⟨heffect, hcall⟩ :=
      Interpreter.execute_effect (fun site hsite => hinvoke ⟨site, hsite⟩) h
    obtain ⟨hover, hkept⟩ := effect_record heffect
    cases hhands : instr.handsOver with
    | true => exact .inl ⟨rfl, hover hhands⟩
    | false => exact .inr ⟨hcall, rfl, hkept hhands⟩

theorem tracker_accumulates (kind : ResourceKind) (obtainAt : Nat) :
    (tracker kind obtainAt).Accumulates Evidence.Within := by
  refine ⟨Evidence.Within.refl, Evidence.Within.trans, ?_⟩
  intro e i instr f e' f' h
  rcases tracker_record h with ⟨site, args, g, -, -, rfl⟩ | ⟨-, v, -, rfl⟩ | ⟨-, -, rfl⟩
  · exact Tracker.within_call
  · exact Evidence.within_leave _ _ v
  · exact Evidence.Within.refl _

end Execute

/-! ## Values -/

/-- Instruction `i` is a call that gives back its only argument `v`, and it is not the place
where the instance is obtained. -/
def GivesBack {V : Type} (kind : ResourceKind) (obtainAt i : Nat) (instr : Instruction)
    (f : Frame V) (v : V) : Prop :=
  i ≠ obtainAt ∧ ∃ site, instr = .invoke site ∧ Tracker.isRecycleCall kind site = true ∧
    f.args? site = some [v]

theorem GivesBack.isRecycleCall {V : Type} {kind : ResourceKind} {obtainAt i : Nat}
    {instr : Instruction} {f : Frame V} {v : V} (h : GivesBack kind obtainAt i instr f v)
    {site : CallSite} (hsite : instr = .invoke site) : Tracker.isRecycleCall kind site = true := by
  obtain ⟨-, site', hsite', hrelease, -⟩ := h
  obtain rfl := Instruction.invoke.inj (hsite.symm.trans hsite')
  exact hrelease

/-- Instruction `i` is the call that yields the instance. -/
def Obtains (obtainAt i : Nat) (instr : Instruction) : Prop :=
  i = obtainAt ∧ ∃ site, instr = .invoke site

/-- What the tracker makes of the values of `f`, told by their origin: a value is moved as it
is, unless the instruction gives the instance back and marks it as released. -/
def Tracked (f : Frame Ownership) (obtained released : Prop) : Origin → Ownership → Prop
  | .moved q, v => ∃ u, f.value? q = some u ∧ (v = u ∨ released ∧ u = .tracked ∧ v = .released)
  | .fresh, v => v = .unknown
  | .result, v => v = .unknown ∨ obtained ∧ v = .tracked ∨ released ∧ v = .released

/-- A call leaves the frame alone, or marks places as released. -/
theorem tracker_call_frame (kind : ResourceKind) (obtainAt : Nat) (e : Evidence) (i : Nat)
    (site : CallSite) (args : List Ownership) (f : Frame Ownership) :
    ((tracker kind obtainAt).call e i site args f).2.2 = f ∨
      ((tracker kind obtainAt).call e i site args f).2.2 = f.map Tracker.markReleased := by
  show (Tracker.call kind obtainAt e i site args f).2.2 = f ∨
    (Tracker.call kind obtainAt e i site args f).2.2 = f.map Tracker.markReleased
  by_cases hi : i = obtainAt
  · rw [hi, Tracker.call_obtain]
    exact .inl rfl
  · by_cases hrelease : Tracker.isRecycleCall kind site = true ∧ args = [.tracked]
    · obtain ⟨hsite, rfl⟩ := hrelease
      rw [Tracker.call_release hi hsite]
      exact .inr rfl
    · rw [Tracker.call_use hi hrelease]
      exact .inl rfl

theorem tracker_keepsSize (kind : ResourceKind) (obtainAt : Nat) :
    (tracker kind obtainAt).KeepsSize := by
  constructor
  case slots =>
    intro e i site args f
    rcases tracker_call_frame kind obtainAt e i site args f with hsame | hmarked
    · rw [hsame]
    · rw [hmarked]
      exact List.length_map _
  case stack =>
    intro e i site args f
    rcases tracker_call_frame kind obtainAt e i site args f with hsame | hmarked
    · rw [hsame]
    · rw [hmarked]
      exact List.length_map _

theorem tracker_keepsLimit (kind : ResourceKind) (obtainAt : Nat) :
    (tracker kind obtainAt).KeepsLimit := by
  intro e i site args f
  rcases tracker_call_frame kind obtainAt e i site args f with hsame | hmarked
  · rw [hsame]
  · rw [hmarked]
    rfl

theorem tracker_keepsShape (kind : ResourceKind) (obtainAt : Nat) :
    (tracker kind obtainAt).KeepsShape :=
  (tracker_keepsSize kind obtainAt).keepsShape (tracker_keepsLimit kind obtainAt)

section Values

variable {kind : ResourceKind} {obtainAt i : Nat} {instr : Instruction} {e e' : Evidence}
  {f f' : Frame Ownership} {m : Method}

/-- A release marks some of the values that it leaves in the frame. -/
theorem Tracked.markReleased {obtained released : Prop} (hobtained : ¬obtained)
    (hreleased : released) {o : Origin} {v : Ownership} (h : Tracked f obtained released o v) :
    Tracked f obtained released o (Tracker.markReleased v) := by
  cases o with
  | moved q =>
    obtain ⟨u, hu, rfl | ⟨-, hu', rfl⟩⟩ := h
    · cases v with
      | tracked => exact ⟨_, hu, .inr ⟨hreleased, rfl, rfl⟩⟩
      | unknown | released => exact ⟨_, hu, .inl rfl⟩
    · exact ⟨u, hu, .inr ⟨hreleased, hu', rfl⟩⟩
  | fresh =>
    obtain rfl : v = .unknown := h
    exact rfl
  | result =>
    rcases h with rfl | ⟨hobtained', -⟩ | ⟨-, rfl⟩
    · exact .inl rfl
    · exact absurd hobtained' hobtained
    · exact .inr (.inr ⟨hreleased, rfl⟩)

/-- A value that is marked as released was so before, or the instruction is a release. -/
theorem Tracked.of_released {obtained released : Prop} {o : Origin}
    (h : Tracked f obtained released o .released) :
    (∃ source, o = .moved source ∧ f.value? source = some .released) ∨ released := by
  cases o with
  | moved source =>
    obtain ⟨u, hu, rfl | ⟨hreleased, -⟩⟩ := h
    · exact .inl ⟨source, rfl, hu⟩
    · exact .inr hreleased
  | fresh => cases h
  | result =>
    rcases h with hunknown | ⟨-, htracked⟩ | ⟨hreleased, -⟩
    · cases hunknown
    · cases htracked
    · exact .inr hreleased

/-- A value that is tracked was so before, or the instruction obtains the instance. -/
theorem Tracked.of_tracked {obtained released : Prop} {o : Origin}
    (h : Tracked f obtained released o .tracked) :
    (∃ source, o = .moved source ∧ f.value? source = some .tracked) ∨ obtained := by
  cases o with
  | moved source =>
    obtain ⟨u, hu, rfl | ⟨-, -, hreleased⟩⟩ := h
    · exact .inl ⟨source, rfl, hu⟩
    · cases hreleased
  | fresh => cases h
  | result =>
    rcases h with hunknown | ⟨hobtained, -⟩ | ⟨-, hreleased⟩
    · cases hunknown
    · exact .inr hobtained
    · cases hreleased

/-- The values after an execution of the tracker, told by their origins. -/
theorem tracker_values (hf : f.SameShape m f)
    (h : (tracker kind obtainAt).execute e i instr f = .ok (e', f')) :
    ∃ n, origins.execute () i instr f.places = .ok ((), n) ∧
      n.Related m
        (Tracked f (Obtains obtainAt i instr) (GivesBack kind obtainAt i instr f .tracked)) f' := by
  have hplaces : f.places.Related m
      (Tracked f (Obtains obtainAt i instr) (GivesBack kind obtainAt i instr f .tracked)) f :=
    Frame.places_related hf fun q w hw => ⟨w, hw, .inl rfl⟩
  have hfresh : Tracked f (Obtains obtainAt i instr) (GivesBack kind obtainAt i instr f .tracked)
      .fresh .unknown := rfl
  have hcall : ∀ site argCount, instr = .invoke site → site.argCount? = some argCount →
      origins.CallsAlike m (tracker kind obtainAt)
        (Tracked f (Obtains obtainAt i instr) (GivesBack kind obtainAt i instr f .tracked)) () e i
        site argCount f.places f := by
    rintro site argCount rfl hcount names n args g - hpop - hg
    show (_ → Tracked _ _ _ .result (Tracker.call kind obtainAt e i site args g).2.1) ∧
      n.Related m _ (Tracker.call kind obtainAt e i site args g).2.2
    -- of the three ways a call can go only a release touches the values that stay in the frame
    by_cases hi : i = obtainAt
    · subst hi
      rw [Tracker.call_obtain]
      exact ⟨fun _ => .inr (.inl ⟨⟨rfl, site, rfl⟩, rfl⟩), hg⟩
    · by_cases hrelease : Tracker.isRecycleCall kind site = true ∧ args = [.tracked]
      · obtain ⟨hsite, rfl⟩ := hrelease
        rw [Tracker.call_release hi hsite]
        have hgives : GivesBack kind obtainAt i (.invoke site) f .tracked :=
          ⟨hi, site, rfl, hsite, Frame.args?_of_popN hcount hpop⟩
        exact ⟨fun _ => .inr (.inr ⟨hgives, rfl⟩),
          hg.map fun _ _ hov => hov.markReleased (fun hobtains => hi hobtains.1) hgives⟩
      · rw [Tracker.call_use hi hrelease]
        exact ⟨fun _ => .inl rfl, hg⟩
  obtain ⟨⟨_, n⟩, hn, hrelated⟩ :=
    (Interpreter.execute_alike instr hfresh hcall hplaces).symm.exists_ok h
  exact ⟨n, hn, hrelated⟩

/-- The values with which a handler is entered, told by their origins. -/
theorem tracker_entry_values {entry : Frame Ownership} (hf : f.SameShape m f)
    (h : (tracker kind obtainAt).handlerEntry e f = .ok entry) :
    ∃ n, origins.handlerEntry () f.places = .ok n ∧ n.Related m (Tracked f False False) entry := by
  have hplaces : f.places.Related m (Tracked f False False) f :=
    Frame.places_related hf fun q w hw => ⟨w, hw, .inl rfl⟩
  have hnew : Tracked f False False .fresh .unknown := rfl
  exact (Interpreter.handlerEntry_alike (I := origins) (J := tracker kind obtainAt) (s := ())
    (t := e) hnew hplaces).symm.exists_ok h

end Values

/-! ## What an execution notes -/

/-- The instruction takes the instance out of the method, as far as the frame before it tells: the
value that it stores into the heap or returns is the instance, or it is a call that takes the
tracked instance as an argument other than the receiver. -/
def NotesEscape (kind : ResourceKind) (obtainAt i : Nat) (instr : Instruction)
    (f : Frame Ownership) : Prop :=
  (instr.handsOver = true ∧ ∃ v, f.value? (.entry 0) = some v ∧ v.isInstance = true) ∨
    i ≠ obtainAt ∧ ∃ site args k, instr = .invoke site ∧ kind.preservesIdentity site = false ∧
      f.args? site = some args ∧ args[k]? = some .tracked ∧
        (if site.kind.hasReceiver then 1 else 0) ≤ k

/-- The instruction is a call that uses the instance after its release, as far as the frame before
it tells; a call that is known to leave the instance with its owner looks no further than the first
tracked argument. -/
def NotesUse (kind : ResourceKind) (obtainAt i : Nat) (instr : Instruction)
    (f : Frame Ownership) : Prop :=
  i ≠ obtainAt ∧ ∃ site args, ∃ k : Nat, instr = .invoke site ∧ f.args? site = some args ∧
    args[k]? = some .released ∧
      (kind.preservesIdentity site = true → ∀ l < k, args[l]? ≠ some .tracked)

section Notes

variable {kind : ResourceKind} {obtainAt i : Nat} {instr : Instruction} {e e' : Evidence}
  {f f' : Frame Ownership}

theorem not_notesEscape_of_kept (hcall : instr.call? = none) (hhands : instr.handsOver = false) :
    ¬NotesEscape kind obtainAt i instr f := by
  rintro (⟨hhands', -⟩ | ⟨-, site, args, k, rfl, -⟩)
  · rw [hhands] at hhands'
    cases hhands'
  · cases hcall

theorem notesEscape_iff_of_handsOver (hhands : instr.handsOver = true) {v : Ownership}
    (hv : f.value? (.entry 0) = some v) :
    NotesEscape kind obtainAt i instr f ↔ v.isInstance = true := by
  constructor
  · rintro (⟨-, w, hw, hinstance⟩ | ⟨-, site, args, k, rfl, -⟩)
    · obtain rfl : v = w := Option.some.inj (hv.symm.trans hw)
      exact hinstance
    · cases hhands
  · intro hinstance
    exact .inl ⟨hhands, v, hv, hinstance⟩

theorem notesEscape_invoke {site : CallSite} {args : List Ownership}
    (hargs : f.args? site = some args) : NotesEscape kind obtainAt i (.invoke site) f ↔
      i ≠ obtainAt ∧ kind.preservesIdentity site = false ∧
        ∃ k, args[k]? = some .tracked ∧ (if site.kind.hasReceiver then 1 else 0) ≤ k := by
  constructor
  · rintro (⟨hhands, -⟩ | ⟨hi, site', args', k, hsite, hpreserves, hargs', hk, hfirst⟩)
    · cases hhands
    · obtain rfl := Instruction.invoke.inj hsite
      obtain rfl := Option.some.inj (hargs.symm.trans hargs')
      exact ⟨hi, hpreserves, k, hk, hfirst⟩
  · rintro ⟨hi, hpreserves, k, hk, hfirst⟩
    exact .inr ⟨hi, site, args, k, rfl, hpreserves, hargs, hk, hfirst⟩

theorem notesUse_invoke {site : CallSite} {args : List Ownership}
    (hargs : f.args? site = some args) : NotesUse kind obtainAt i (.invoke site) f ↔
      i ≠ obtainAt ∧ ∃ k : Nat, args[k]? = some .released ∧
        (kind.preservesIdentity site = true → ∀ l < k, args[l]? ≠ some .tracked) := by
  constructor
  · rintro ⟨hi, site', args', k, hsite, hargs', hk, hbefore⟩
    obtain rfl := Instruction.invoke.inj hsite
    obtain rfl := Option.some.inj (hargs.symm.trans hargs')
    exact ⟨hi, k, hk, hbefore⟩
  · rintro ⟨hi, k, hk, hbefore⟩
    exact ⟨hi, site, args, k, rfl, hargs, hk, hbefore⟩

/-- A release is recorded by an execution that gives the tracked instance back, and by no other. -/
theorem recycled_execute (h : (tracker kind obtainAt).execute e i instr f = .ok (e', f')) :
    e'.recycled = true ↔ e.recycled = true ∨ GivesBack kind obtainAt i instr f .tracked := by
  have hother : instr.call? = none → ¬GivesBack kind obtainAt i instr f .tracked := by
    rintro hcall ⟨-, site, rfl, -⟩
    cases hcall
  obtain ⟨site, args, g, rfl, hargs, rfl⟩ | ⟨hhands, v, -, rfl⟩ | ⟨hcall, -, rfl⟩ :=
    tracker_record h
  · rw [Tracker.recycled_call]
    apply or_congr_right
    constructor
    · rintro ⟨hi, hsite, rfl⟩
      exact ⟨hi, site, rfl, hsite, hargs⟩
    · rintro ⟨hi, site', hsite', hrelease, hargs'⟩
      obtain rfl := Instruction.invoke.inj hsite'
      exact ⟨hi, hrelease, Option.some.inj (hargs.symm.trans hargs')⟩
  · have hcall : instr.call? = none := by
      cases instr <;> first | rfl | cases hhands
    rw [or_iff_left (hother hcall), Evidence.leave]
    split_ifs <;> rfl
  · rw [or_iff_left (hother hcall)]

/-- An escape is recorded where the execution takes the instance out of the method. -/
theorem mem_escapes_execute (h : (tracker kind obtainAt).execute e i instr f = .ok (e', f'))
    {j : Nat} : j ∈ e'.escapes ↔ j ∈ e.escapes ∨ j = i ∧ NotesEscape kind obtainAt i instr f := by
  obtain ⟨site, args, g, rfl, hargs, rfl⟩ | ⟨hhands, v, hv, rfl⟩ | ⟨hcall, hhands, rfl⟩ :=
    tracker_record h
  · rw [Tracker.mem_escapes_call, notesEscape_invoke hargs]
  · rw [notesEscape_iff_of_handsOver hhands hv, Evidence.leave]
    split_ifs with hinstance
    · simp [Evidence.escapeAt, mem_insertIndex, hinstance, or_comm]
    · simp [hinstance]
  · simp [not_notesEscape_of_kept hcall hhands]

/-- A use after release is recorded where the execution is handed a released value. -/
theorem mem_doubleReleases_execute
    (h : (tracker kind obtainAt).execute e i instr f = .ok (e', f')) {j : Nat} :
    j ∈ e'.doubleReleases ↔
      j ∈ e.doubleReleases ∨ j = i ∧ NotesUse kind obtainAt i instr f := by
  have hother : (∀ site, instr ≠ .invoke site) → ¬NotesUse kind obtainAt i instr f := by
    rintro hinvoke ⟨-, site, -, -, rfl, -⟩
    exact hinvoke site rfl
  obtain ⟨site, args, g, rfl, hargs, rfl⟩ | ⟨hhands, v, -, rfl⟩ | ⟨hcall, -, rfl⟩ :=
    tracker_record h
  · rw [Tracker.mem_doubleReleases_call, notesUse_invoke hargs]
  · have hinvoke : ∀ site, instr ≠ .invoke site := by
      rintro site rfl
      cases hhands
    rw [Evidence.leave]
    split_ifs <;> simp [Evidence.escapeAt, hother hinvoke]
  · have hinvoke : ∀ site, instr ≠ .invoke site := by
      rintro site rfl
      cases hcall
    simp [hother hinvoke]

/-- A release of the instance is recorded. -/
theorem recycled_of_givesBack (h : (tracker kind obtainAt).execute e i instr f = .ok (e', f'))
    (hgives : GivesBack kind obtainAt i instr f .tracked) : e'.recycled = true :=
  (recycled_execute h).2 (.inr hgives)

end Notes

/-! ## The verdict -/

/-- The verdict is a leak if nothing at all is recorded. -/
theorem Evidence.verdict_eq_leaked {e : Evidence} :
    e.verdict = .leaked ↔ e.recycled = false ∧ e.escapes = [] := by
  unfold Evidence.verdict Evidence.isEscaped
  cases hescapes : e.escapes with
  | nil =>
    cases hrecycled : e.recycled with
    | false => simp
    | true => simp
  | cons j rest => simp

/-- The verdict is an escape if one is recorded. -/
theorem Evidence.verdict_eq_escaped {e : Evidence} : e.verdict = .escaped ↔ e.escapes ≠ [] := by
  unfold Evidence.verdict Evidence.isEscaped
  cases hescapes : e.escapes with
  | nil =>
    cases e.recycled with
    | false => simp
    | true => simp
  | cons j rest => simp

theorem checkMethodFlow_eq_ok {m : Method} {obtainAt : Nat} {kind : ResourceKind}
    {report : FlowReport} :
    checkMethodFlow m obtainAt kind = .ok report ↔
      ∃ a, trackInstance m obtainAt kind = .ok a ∧
        report = ⟨a.record.verdict, a.record.doubleReleases, a.frames, a.steps⟩ := by
  unfold checkMethodFlow
  rw [bind_eq_ok]
  constructor
  · rintro ⟨a, ha, hreport⟩
    exact ⟨a, ha, (Except.ok.inj hreport).symm⟩
  · rintro ⟨a, ha, rfl⟩
    exact ⟨a, ha, rfl⟩

end PoolLint
