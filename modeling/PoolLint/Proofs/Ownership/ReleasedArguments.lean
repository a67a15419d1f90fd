import PoolLint.Proofs.Flow.FrameTable
import PoolLint.Proofs.Ownership.LeakVerdict

/-!
# Calls with a released argument are reported

The reported calls are recorded while frames still grow, and the frame table is what they have
grown to. Both belong together all the same: the last execution of a call is one on its final
frame, and nothing that an execution records is taken back. So a call that finds a released value
among its arguments in the final frame is reported (`released_argument_reported`).

Two calls are left out on purpose. The call that yields the instance does not look at its
arguments, even if a loop brings the instance back to it. And a call that is known to leave the
instance with its owner looks no further than the first argument that is the instance, so a
released value behind it goes unseen (`released_argument_unseen`).
-/

namespace PoolLint

open PoolLint.Bytecode PoolLint.Flow

variable {kind : ResourceKind} {obtainAt i c : Nat} {m : Method} {f : Frame Ownership}
  {site : CallSite}

/-- A call notes a use after release if one of the values that it takes off the stack is released,
and if none of those pushed before that one may end the inspection. -/
theorem notesUse_of_stack (hi : i ≠ obtainAt) {n k : Nat} (hcount : site.argCount? = some n)
    (hn : n ≤ f.stack.length) (hk : k < n) (hreleased : f.stack[k]? = some .released)
    (hbefore : kind.preservesIdentity site = true →
      ∀ l, k < l → l < n → f.stack[l]? ≠ some .tracked) :
    NotesUse kind obtainAt i (.invoke site) f := by
  have hargs : f.args? site = some (f.stack.take n).reverse :=
    Frame.args?_eq_some.2 ⟨n, hcount, hn, rfl⟩
  -- the value at depth `k` is the argument with `n - 1 - k` others before it
  refine (notesUse_invoke hargs).2 ⟨hi, n - 1 - k, ?_, ?_⟩
  · rw [Frame.getElem?_reverse_take hn (by omega), show n - 1 - (n - 1 - k) = k by omega]
    exact hreleased
  · intro hpreserves l hl
    rw [Frame.getElem?_reverse_take hn (by omega)]
    exact hbefore hpreserves (n - 1 - l) (by omega) (by omega)

/-- Whenever the check of a method succeeds, every call that control can reach has a final frame
with all the values that it takes off the stack. If one of these is released then the call is
reported, whatever the callee is; save for the call that yields the instance, and for a call that
is known to leave the instance with its owner if a tracked value was pushed before that one. -/
theorem released_argument_reported {report : FlowReport}
    (h : checkMethodFlow m obtainAt kind = .ok report) (hc : m.Reachable c)
    (hcode : m.code[c]? = some (.invoke site)) :
    ∃ f n, report.frames[c]? = some (some f) ∧ site.argCount? = some n ∧ n ≤ f.stack.length ∧
      (c ≠ obtainAt → ∀ k < n, f.stack[k]? = some .released →
        (kind.preservesIdentity site = true →
          ∀ l, k < l → l < n → f.stack[l]? ≠ some .tracked) →
        c ∈ report.doubleReleases) := by
  obtain ⟨a, ha, rfl⟩ := checkMethodFlow_eq_ok.1 h
  have hanalyzes : Analyzes (tracker kind obtainAt) .none m (.ok a) := analyzes_iff.2 ha
  obtain ⟨f, hf⟩ := Analysis.isReachable_eq_true.1 ((hanalyzes.isReachable_iff c).2 hc)
  obtain ⟨e, e', f', hexecute, -⟩ := executed_at ha hf hcode
  obtain ⟨n, args, g, hcount, hpop, -⟩ := Interpreter.execute_invoke hexecute
  obtain ⟨n', hcount', hn, -⟩ := Frame.args?_eq_some.1 (Frame.args?_of_popN hcount hpop)
  obtain rfl : n = n' := Option.some.inj (hcount.symm.trans hcount')
  refine ⟨f, n, Option.join_eq_some_iff.1 hf, hcount, hn, ?_⟩
  intro hobtain k hk hreleased hbefore
  exact mem_doubleReleases_of_notesUse ha hf hcode
    (notesUse_of_stack hobtain hcount hn hk hreleased hbefore)

set_option maxRecDepth 10000 in
/-- When the guarded loop comes back to the release, the parcel is released already. -/
theorem released_argument_reported_of_loop : ∃ report,
    checkMethodFlow guardedLoop 0 ResourceTable.parcel = .ok report ∧
      3 ∈ report.doubleReleases := by
  obtain ⟨a, ha, hframe⟩ : ∃ a, trackInstance guardedLoop 0 ResourceTable.parcel = .ok a ∧
      a.frame? 3 = some ⟨[.released], [.released], some 1⟩ :=
    analyze_view_of_runFor (·.frame? 3) 30 _ (by decide) (by decide) (by decide)
  have hreport := checkMethodFlow_eq_ok.2 ⟨a, ha, rfl⟩
  obtain ⟨-, -, hrelease⟩ := reachable_guardedLoop
  obtain ⟨f, n, hf, hcount, -, hreported⟩ := released_argument_reported hreport hrelease rfl
  obtain rfl : ⟨[.released], [.released], some 1⟩ = f :=
    Option.some.inj (hframe.symm.trans (Option.join_eq_some_iff.2 hf))
  obtain rfl : 1 = n := Option.some.inj hcount
  refine ⟨_, hreport, hreported (by decide) 0 (by decide) rfl ?_⟩
  intro hpreserves
  cases hpreserves

/-! ### Released values that are left out -/

/-- `MotionEvent.obtain(event)` -/
def copyEvent : Instruction :=
  .invoke ⟨.static, "android/view/MotionEvent", "obtain",
    "(Landroid/view/MotionEvent;)Landroid/view/MotionEvent;"⟩

/-- `MotionEvent.obtain(event, other)` -/
def linkEvents : CallSite :=
  ⟨.static, "android/view/MotionEvent", "obtain",
    "(Landroid/view/MotionEvent;Landroid/view/MotionEvent;)V"⟩

/-- `event.recycle()` -/
def recycleEvent : Instruction :=
  .invoke ⟨.virtual, "android/view/MotionEvent", "recycle", "()V"⟩

/-- In a loop an event is copied from the one of the round before, linked to it, kept for the next
round, and given back. -/
def copyInLoop : Method :=
  plainMethod 1 [.load 0, copyEvent, .dup, .load 0, .invoke linkEvents, .dup, .store 0,
    recycleEvent, .goto 0]

set_option maxRecDepth 10000 in
/-- In the final frames the event of the round before is released, on top of the stack where the
copy is made and where the two are linked. The first call yields the copy, the second one is known
to leave events with their owners and has the copy for its first argument; neither is reported. -/
theorem released_argument_unseen : ∃ report f g,
    checkMethodFlow copyInLoop 1 ResourceTable.motionEvent = .ok report ∧
      copyInLoop.Reachable 1 ∧ copyInLoop.Reachable 4 ∧
      copyInLoop.code[1]? = some copyEvent ∧ copyEvent.call?.bind (·.argCount?) = some 1 ∧
      copyInLoop.code[4]? = some (.invoke linkEvents) ∧ linkEvents.argCount? = some 2 ∧
      report.frames[1]? = some (some f) ∧ f.stack[0]? = some .released ∧
      report.frames[4]? = some (some g) ∧ g.stack[0]? = some .released ∧
      1 ∉ report.doubleReleases ∧ 4 ∉ report.doubleReleases := by
  obtain ⟨a, ha, hview⟩ : ∃ a, trackInstance copyInLoop 1 ResourceTable.motionEvent = .ok a ∧
      (a.frame? 1, a.frame? 4, a.record.doubleReleases) =
        (some ⟨[.released], [.released], none⟩,
          some ⟨[.released], [.released, .tracked, .tracked], none⟩, []) :=
    analyze_view_of_runFor (fun a : Analysis Ownership Evidence =>
      (a.frame? 1, a.frame? 4, a.record.doubleReleases)) 30 _ (by decide) (by decide) (by decide)
  obtain ⟨hcopy, hrest⟩ := Prod.mk.inj hview
  obtain ⟨hlink, hnone⟩ := Prod.mk.inj hrest
  have hfirst : copyInLoop.Reachable 1 := .single (.inl (by decide))
  have hsecond : copyInLoop.Reachable 4 :=
    ((hfirst.tail (c := 2) (.inl (by decide))).tail (c := 3) (.inl (by decide))).tail
      (.inl (by decide))
  refine ⟨_, _, _, checkMethodFlow_eq_ok.2 ⟨a, ha, rfl⟩, hfirst, hsecond, rfl, by decide, rfl,
    by decide, Option.join_eq_some_iff.1 hcopy, rfl, Option.join_eq_some_iff.1 hlink, rfl, ?_, ?_⟩
  · show 1 ∉ a.record.doubleReleases
    rw [hnone]
    exact List.not_mem_nil
  · show 4 ∉ a.record.doubleReleases
    rw [hnone]
    exact List.not_mem_nil

end PoolLint
