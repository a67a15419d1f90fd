import PoolLint.Flow.Semilattice

/-!
# Frames

The abstract state before an instruction: one value per local slot and one per entry of the
operand stack, the top entry first. A failing operation yields an error and no frame, so the
frame it was applied to stays as it was.
-/

namespace PoolLint.Flow

/-- Why a frame operation is impossible. -/
inductive FrameError where
  | stackUnderflow
  | stackOverflow (max : Nat)
  | localOutOfRange (slot maxLocals : Nat)
  | heightMismatch (left right : Nat)
deriving DecidableEq, Repr

/-- The wording of a frame error. -/
def FrameError.message : FrameError → String
  | stackUnderflow => "operand stack underflow"
  | stackOverflow max => s!"operand stack overflow (max {max})"
  | localOutOfRange slot maxLocals => s!"local slot {slot} out of range (max_locals {maxLocals})"
  | heightMismatch left right => s!"inconsistent stack height at join ({left} vs {right})"

/-- Local slots and operand stack, the top of the stack at the head; the stack is unbounded
without a `maxStack`. -/
structure Frame (V : Type) where
  locals : List V
  stack : List V
  maxStack : Option Nat
deriving DecidableEq, Repr

namespace Frame

variable {V : Type}

/-- An empty stack over `maxLocals` slots that all hold `init`. -/
def new (maxLocals : Nat) (maxStack : Option Nat) (init : V) : Frame V :=
  ⟨List.replicate maxLocals init, [], maxStack⟩

/-- The number of operand stack entries. -/
def stackHeight (f : Frame V) : Nat :=
  f.stack.length

/-- The value of a local slot. -/
def getLocal (f : Frame V) (slot : Nat) : Except FrameError V :=
  match f.locals[slot]? with
  | some v => .ok v
  | none => .error (.localOutOfRange slot f.locals.length)

/-- Replaces the value of a local slot. -/
def setLocal (f : Frame V) (slot : Nat) (v : V) : Except FrameError (Frame V) :=
  if slot < f.locals.length then .ok { f with locals := f.locals.set slot v }
  else .error (.localOutOfRange slot f.locals.length)

/-- Whether one more entry exceeds the declared limit; yields that limit. -/
def exhausted? (f : Frame V) : Option Nat :=
  f.maxStack.filter (· ≤ f.stack.length)

/-- Pushes a value. -/
def push (f : Frame V) (v : V) : Except FrameError (Frame V) :=
  match f.exhausted? with
  | some max => .error (.stackOverflow max)
  | none => .ok { f with stack := v :: f.stack }

/-- Takes the top value off the stack. -/
def pop (f : Frame V) : Except FrameError (V × Frame V) :=
  match f.stack with
  | v :: rest => .ok (v, { f with stack := rest })
  | [] => .error .stackUnderflow

/-- Takes `n` values off the stack and lists them in the order they were pushed. -/
def popN (f : Frame V) (n : Nat) : Except FrameError (List V × Frame V) :=
  if n ≤ f.stack.length then
    .ok ((f.stack.take n).reverse, { f with stack := f.stack.drop n })
  else .error .stackUnderflow

/-- The top value. -/
def peek (f : Frame V) : Except FrameError V :=
  match f.stack with
  | v :: _ => .ok v
  | [] => .error .stackUnderflow

/-- Empties the stack. -/
def clearStack (f : Frame V) : Frame V :=
  { f with stack := [] }

/-- The values of all slots and all stack entries. -/
def values (f : Frame V) : List V :=
  f.locals ++ f.stack

/-- Applies a function to every slot and every stack entry. -/
def map (g : V → V) (f : Frame V) : Frame V :=
  { f with locals := f.locals.map g, stack := f.stack.map g }

/-! ## Merging -/

/-- Merges the second list into the first, place by place; places that only the first has
stay as they are. -/
def mergeValues [JoinSemilattice V] : List V → List V → List V
  | a :: as, b :: bs => merge a b :: mergeValues as bs
  | as, _ => as

/-- Merges `g` into `f`; the flag tells whether this changed `f`. -/
def mergeFrom [JoinSemilattice V] [DecidableEq V] (f g : Frame V) :
    Except FrameError (Frame V × Bool) :=
  if f.stack.length = g.stack.length then
    let merged : Frame V :=
      { f with locals := mergeValues f.locals g.locals, stack := mergeValues f.stack g.stack }
    .ok (merged, decide (merged ≠ f))
  else .error (.heightMismatch f.stack.length g.stack.length)

/-! ## Room for growth -/

section Slack

variable [FiniteHeight V]

/-- How often the values of a list can still grow, taken together. -/
def slackOf (vs : List V) : Nat :=
  total Flow.slack vs

theorem slackOf_mergeValues_le (as bs : List V) : slackOf (mergeValues as bs) ≤ slackOf as := by
  induction as generalizing bs with
  | nil => cases bs <;> simp [mergeValues, slackOf]
  | cons a as ih =>
    cases bs with
    | nil => simp [mergeValues]
    | cons b bs =>
      have ha := slack_merge_le a b
      have has := ih bs
      simp only [mergeValues, slackOf, total] at has ⊢
      omega

theorem slackOf_mergeValues_lt {as bs : List V} (h : mergeValues as bs ≠ as) :
    slackOf (mergeValues as bs) < slackOf as := by
  induction as generalizing bs with
  | nil => cases bs <;> simp [mergeValues] at h
  | cons a as ih =>
    cases bs with
    | nil => simp [mergeValues] at h
    | cons b bs =>
      have hle := slack_merge_le a b
      have hles := slackOf_mergeValues_le as bs
      by_cases ha : merge a b = a
      · have hne : mergeValues as bs ≠ as := by
          intro heq
          exact h (by simp [mergeValues, ha, heq])
        have hlt := ih hne
        simp only [mergeValues, slackOf, total] at hles hlt ⊢
        omega
      · have hlt := slack_merge_lt ha
        simp only [mergeValues, slackOf, total] at hles ⊢
        omega

/-- How often the values of a frame can still grow, taken together. -/
def slack (f : Frame V) : Nat :=
  slackOf f.locals + slackOf f.stack

/-- A merge that reports a change leaves less room for growth. -/
theorem slack_lt_of_mergeFrom [DecidableEq V] {f g merged : Frame V}
    (h : f.mergeFrom g = .ok (merged, true)) : merged.slack < f.slack := by
  unfold mergeFrom at h
  split at h
  · simp only [Except.ok.injEq, Prod.mk.injEq, decide_eq_true_eq] at h
    obtain ⟨rfl, hne⟩ := h
    have hl := slackOf_mergeValues_le f.locals g.locals
    have hs := slackOf_mergeValues_le f.stack g.stack
    simp only [slack]
    by_cases hlocals : mergeValues f.locals g.locals = f.locals
    · have hstack : mergeValues f.stack g.stack ≠ f.stack := by
        intro heq
        exact hne (by rw [hlocals, heq])
      have := slackOf_mergeValues_lt hstack
      omega
    · have := slackOf_mergeValues_lt hlocals
      omega
  · simp at h

end Slack

end Frame

end PoolLint.Flow
