import PoolLint.Proofs.Flow.Coverage
import PoolLint.Proofs.Ownership.Tracking

/-!
# The provenance of values

Along a single path one can say outright which values are the instance: those that were moved
to where they are from the result of the obtaining call. This reading of a path is an
interpreter of its own (`provenance`). A variant follows the instance through calls that hand
it back (`provenanceThrough`), which is what the tracker takes a release to do.

The tracker merges frames of many paths, and a release edits the whole merged frame. Still every
place that it takes for the instance is the instance on some path to that place
(`Realised`), since a release changes only places that hold the instance already. The invariant
names a path for each place and not one for the whole frame: merged frames have places that
belong together on no path.
-/

namespace PoolLint

open PoolLint.Bytecode PoolLint.Flow

/-! ## Readings -/

/-- Follows the result of the call at `obtainAt`, also through calls that hand back their only
argument. -/
def provenanceThrough (handsBack : CallSite → Bool) (obtainAt : Nat) : Interpreter Bool Unit where
  newValue _ := false
  fresh _ _ _ := ((), false)
  storeHeap _ _ _ _ := ()
  call _ i site args f :=
    ((), decide (i = obtainAt) || handsBack site && decide (args = [true]), f)
  ret _ _ _ := ()

/-- Follows the result of the call at `obtainAt` through moves alone. -/
def provenance (obtainAt : Nat) : Interpreter Bool Unit :=
  provenanceThrough (fun _ => false) obtainAt

/-- The path leads to `i`, and reading it yields this frame. -/
structure Reads (handsBack : CallSite → Bool) (obtainAt : Nat) (m : Method) (p : List Hop)
    (i : Nat) (g : Frame Bool) : Prop where
  path : Path m 0 p i
  along : (provenanceThrough handsBack obtainAt).along m () p = .ok ((), g)

/-- The instruction yields the instance from a frame that is read like this. -/
def Yields (handsBack : CallSite → Bool) (obtainAt i : Nat) (instr : Instruction)
    (g : Frame Bool) : Prop :=
  i = obtainAt ∨ ∃ site, instr = .invoke site ∧ handsBack site = true ∧ g.args? site = some [true]

/-- The reading of the values after an instruction, told by their origin. -/
def Read (g : Frame Bool) (yields : Prop) : Origin → Bool → Prop
  | .moved q, b => g.value? q = some b
  | .fresh, b => b = false
  | .result, b => yields → b = true

section Readings

variable {handsBack : CallSite → Bool} {obtainAt i k : Nat} {m : Method} {p : List Hop}
  {f : Frame Ownership} {g : Frame Bool} {instr : Instruction} {n : Frame Origin}

theorem provenance_keepsShape (handsBack : CallSite → Bool) (obtainAt : Nat) :
    (provenanceThrough handsBack obtainAt).KeepsShape :=
  fun _ _ _ _ _ _ hf => hf

/-- If the moves of an instruction are possible in a frame of this shape, then its reading
succeeds. -/
theorem provenance_values (handsBack : CallSite → Bool) (obtainAt : Nat) (hg : f.SameShape m g)
    (h : origins.execute () i instr f.places = .ok ((), n)) :
    ∃ g', (provenanceThrough handsBack obtainAt).execute () i instr g = .ok ((), g') ∧
      n.Related m (Read g (Yields handsBack obtainAt i instr g)) g' := by
  have hplaces : f.places.Related m (Read g (Yields handsBack obtainAt i instr g)) g :=
    Frame.places_related hg fun _ _ hw => hw
  have hfresh : Read g (Yields handsBack obtainAt i instr g) .fresh false := rfl
  have hcall : ∀ site argCount, instr = .invoke site → site.argCount? = some argCount →
      origins.CallsAlike m (provenanceThrough handsBack obtainAt)
        (Read g (Yields handsBack obtainAt i instr g)) () () i site argCount f.places g := by
    rintro site argCount rfl hcount names n₁ args g₁ - hpop - hg₁
    refine ⟨?_, hg₁⟩
    rintro - (hi | ⟨site', hsite', hhands, hargs⟩)
    · simp [provenanceThrough, hi]
    · obtain rfl := Instruction.invoke.inj hsite'
      rw [Frame.args?_of_popN hcount hpop] at hargs
      obtain rfl := Option.some.inj hargs
      simp [provenanceThrough, hhands]
  obtain ⟨⟨_, g'⟩, hg', hrelated⟩ :=
    (Interpreter.execute_alike instr hfresh hcall hplaces).exists_ok h
  exact ⟨g', hg', hrelated⟩

/-- Reading the entry of a handler succeeds as well. -/
theorem provenance_entry_values (handsBack : CallSite → Bool) (obtainAt : Nat)
    (hg : f.SameShape m g) (h : origins.handlerEntry () f.places = .ok n) :
    ∃ g', (provenanceThrough handsBack obtainAt).handlerEntry () g = .ok g' ∧
      n.Related m (Read g False) g' := by
  have hplaces : f.places.Related m (Read g False) g :=
    Frame.places_related hg fun _ _ hw => hw
  have hnew : Read g False .fresh false := rfl
  exact (Interpreter.handlerEntry_alike (I := origins)
    (J := provenanceThrough handsBack obtainAt) (s := ()) (t := ()) hnew hplaces).exists_ok h

/-- A reading goes on to the successors of an instruction. -/
theorem Reads.successor {g' : Frame Bool} (h : Reads handsBack obtainAt m p i g)
    (hcode : m.code[i]? = some instr)
    (hexecute : (provenanceThrough handsBack obtainAt).execute () i instr g = .ok ((), g'))
    (hk : k ∈ m.successors i) :
    Reads handsBack obtainAt m (p ++ [⟨i, k, false⟩]) k g' :=
  ⟨.normal h.path hk, (Interpreter.along_normal h.along hcode).trans hexecute⟩

/-- A reading goes on to the handlers that cover an instruction. -/
theorem Reads.handler {handler : Handler} {g' : Frame Bool}
    (h : Reads handsBack obtainAt m p i g) (hmem : handler ∈ m.handlersCovering i)
    (hentry : (provenanceThrough handsBack obtainAt).handlerEntry () g = .ok g') :
    Reads handsBack obtainAt m (p ++ [⟨i, handler.target, true⟩]) handler.target g' :=
  ⟨.caught h.path hmem, Interpreter.along_caught h.along hentry⟩

end Readings

/-! ## Realised frames -/

/-- The place holds the instance on some path to `i`, where the stack is as high as in `f`. -/
def RealisedAt (handsBack : CallSite → Bool) (obtainAt : Nat) (m : Method) (i : Nat)
    (f : Frame Ownership) (q : Place) : Prop :=
  ∃ p g, Reads handsBack obtainAt m p i g ∧ f.SameShape m g ∧ g.value? q = some true

/-- The frame is that of some path to `i`, and what it takes for the instance is the instance
on some such path. -/
structure Realised (handsBack : CallSite → Bool) (obtainAt : Nat) (m : Method) (i : Nat)
    (f : Frame Ownership) : Prop where
  reached : ∃ p g, Reads handsBack obtainAt m p i g ∧ f.SameShape m g
  isInstance : ∀ q v, f.value? q = some v → v.isInstance = true →
    RealisedAt handsBack obtainAt m i f q

namespace Realised

variable {handsBack : CallSite → Bool} {obtainAt i k : Nat} {m : Method}
  {f f' : Frame Ownership} {kind : ResourceKind} {instr : Instruction} {e e' : Evidence}

theorem sameShape (h : Realised handsBack obtainAt m i f) : f.SameShape m f := by
  obtain ⟨p, g, -, hg⟩ := h.reached
  exact hg.left

/-- At the start no place holds the instance. -/
theorem entry : Realised handsBack obtainAt m 0
    (Frame.new m.maxLocals m.maxStack .unknown) := by
  refine ⟨⟨[], _, ⟨.nil, rfl⟩, .new trivial⟩, ?_⟩
  intro q v hv hinstance
  rw [Frame.value?_new hv] at hinstance
  cases hinstance

/-- An argument that the tracker takes for the instance is the instance on some path. -/
theorem args (h : Realised handsBack obtainAt m i f) {site : CallSite} {args : List Ownership}
    (hargs : f.args? site = some args) {j : Nat} {v : Ownership} (hj : args[j]? = some v)
    (hv : v.isInstance = true) :
    ∃ p g args', Reads handsBack obtainAt m p i g ∧ f.SameShape m g ∧ g.args? site = some args' ∧
      args'.length = args.length ∧ args'[j]? = some true := by
  obtain ⟨k, hk, hplace⟩ := Frame.args?_place hargs hj
  obtain ⟨p, g, hreads, hg, htrue⟩ := h.isInstance (.entry k) v hk hv
  obtain ⟨args', hargs', hlength, hj'⟩ := hplace hg htrue
  exact ⟨p, g, args', hreads, hg, hargs', hlength, hj'⟩

/-- A release that the tracker takes note of gives back the instance on some path. -/
theorem givesBack (h : Realised handsBack obtainAt m i f) {v : Ownership}
    (hv : v.isInstance = true) (hgives : GivesBack kind obtainAt i instr f v) :
    ∃ p g, Reads handsBack obtainAt m p i g ∧ f.SameShape m g ∧
      GivesBack kind obtainAt i instr g true := by
  obtain ⟨hi, site, rfl, hsite, hargs⟩ := hgives
  obtain ⟨p, g, args', hreads, hg, hargs', hlength, htrue⟩ := h.args hargs (j := 0) rfl hv
  obtain ⟨b, rfl⟩ := List.length_eq_one_iff.1 hlength
  obtain rfl : b = true := Option.some.inj htrue
  exact ⟨p, g, hreads, hg, hi, site, rfl, hsite, hargs'⟩

/-- Where the instance is after a step, some reading from before the step has it at the origin
of that value. -/
theorem source (h : Realised handsBack obtainAt m i f) {obtained released : Prop}
    {yields : Frame Bool → Prop}
    (hyields : obtained ∨ released →
      ∃ p g, Reads handsBack obtainAt m p i g ∧ f.SameShape m g ∧ yields g)
    {o : Origin} {v : Ownership} (hov : Tracked f obtained released o v)
    (hv : v.isInstance = true) :
    ∃ p g, Reads handsBack obtainAt m p i g ∧ f.SameShape m g ∧
      ∀ b, Read g (yields g) o b → b = true := by
  cases o with
  | moved source =>
    obtain ⟨u, hu, hvu⟩ := hov
    -- a release on the way only marks what was the instance before
    have hsame : u.isInstance = true := by
      rcases hvu with rfl | ⟨-, rfl, -⟩
      · exact hv
      · rfl
    obtain ⟨p, g, hreads, hg, htrue⟩ := h.isInstance source u hu hsame
    refine ⟨p, g, hreads, hg, ?_⟩
    intro b hb
    exact Option.some.inj (hb.symm.trans htrue)
  | fresh =>
    obtain rfl : v = .unknown := hov
    cases hv
  | result =>
    have hcause : obtained ∨ released := by
      rcases hov with rfl | ⟨hobtained, -⟩ | ⟨hreleased, -⟩
      · cases hv
      · exact .inl hobtained
      · exact .inr hreleased
    obtain ⟨p, g, hreads, hg, hyield⟩ := hyields hcause
    exact ⟨p, g, hreads, hg, fun b hb => hb hyield⟩

/-- A step keeps frames realised if the readings take part in it, and if the instance can be
obtained or handed back by it only where some reading has it so. -/
theorem next (h : Realised handsBack obtainAt m i f) {n : Frame Origin}
    {obtained released : Prop} {yields : Frame Bool → Prop}
    (hn : n.Related m (Tracked f obtained released) f')
    (hread : ∀ p g, Reads handsBack obtainAt m p i g → f.SameShape m g →
      ∃ p' g', Reads handsBack obtainAt m p' k g' ∧ n.Related m (Read g (yields g)) g')
    (hyields : obtained ∨ released →
      ∃ p g, Reads handsBack obtainAt m p i g ∧ f.SameShape m g ∧ yields g) :
    Realised handsBack obtainAt m k f' := by
  refine ⟨?_, ?_⟩
  · obtain ⟨p, g, hreads, hg⟩ := h.reached
    obtain ⟨p', g', hreads', hg'⟩ := hread p g hreads hg
    exact ⟨p', g', hreads', hn.flip.trans hg'⟩
  · intro q v hv hinstance
    -- look up the origin of the value, and follow the path that has the instance there
    obtain ⟨o, ho, hov⟩ := hn.flip.value? hv
    obtain ⟨p, g, hreads, hg, htrue⟩ := h.source hyields hov hinstance
    obtain ⟨p', g', hreads', hg'⟩ := hread p g hreads hg
    obtain ⟨b, hb, hob⟩ := hg'.value? ho
    rw [htrue b hob] at hb
    exact ⟨p', g', hreads', hn.flip.trans hg', hb⟩

/-- An execution yields the instance only where some reading does, if the readings follow the
instance through the releases that give it back. -/
theorem yields (h : Realised handsBack obtainAt m i f)
    (hhands : ∀ site, instr = .invoke site → GivesBack kind obtainAt i instr f .tracked →
      handsBack site = true)
    (hcause : Obtains obtainAt i instr ∨ GivesBack kind obtainAt i instr f .tracked) :
    ∃ p g, Reads handsBack obtainAt m p i g ∧ f.SameShape m g ∧
      Yields handsBack obtainAt i instr g := by
  rcases hcause with ⟨hi, -⟩ | hgives
  · obtain ⟨p, g, hreads, hg⟩ := h.reached
    exact ⟨p, g, hreads, hg, .inl hi⟩
  · obtain ⟨p, g, hreads, hg, -, site, hsite, -, hargs⟩ := h.givesBack rfl hgives
    exact ⟨p, g, hreads, hg, .inr ⟨site, hsite, hhands site hsite hgives, hargs⟩⟩

/-- Executions of the tracker keep frames realised, if the readings follow the instance through
the releases that give it back. -/
theorem successor (h : Realised handsBack obtainAt m i f) (hcode : m.code[i]? = some instr)
    (hhands : ∀ site, instr = .invoke site → GivesBack kind obtainAt i instr f .tracked →
      handsBack site = true)
    (hexecute : (tracker kind obtainAt).execute e i instr f = .ok (e', f'))
    (hk : k ∈ m.successors i) : Realised handsBack obtainAt m k f' := by
  obtain ⟨n, hn, hvalues⟩ := tracker_values h.sameShape hexecute
  refine h.next hvalues ?_ (h.yields hhands)
  intro p g hreads hg
  obtain ⟨g', hg', hread⟩ := provenance_values handsBack obtainAt hg hn
  exact ⟨_, g', hreads.successor hcode hg' hk, hread⟩

/-- Entering a handler keeps frames realised. -/
theorem handler (h : Realised handsBack obtainAt m i f) {handler : Handler}
    {entry : Frame Ownership} (hmem : handler ∈ m.handlersCovering i)
    (hentry : (tracker kind obtainAt).handlerEntry e f = .ok entry) :
    Realised handsBack obtainAt m handler.target entry := by
  obtain ⟨n, hn, hvalues⟩ := tracker_entry_values h.sameShape hentry
  have hread : ∀ p g, Reads handsBack obtainAt m p i g → f.SameShape m g →
      ∃ p' g', Reads handsBack obtainAt m p' handler.target g' ∧ n.Related m (Read g False) g' := by
    intro p g hreads hg
    obtain ⟨g', hg', hread⟩ := provenance_entry_values handsBack obtainAt hg hn
    exact ⟨_, g', hreads.handler hmem hg', hread⟩
  exact h.next hvalues hread fun hcause => (hcause.elim id id).elim

/-- Merging keeps frames realised, each place by a path to one of the two frames. -/
theorem merged (h : Realised handsBack obtainAt m i f) (h' : Realised handsBack obtainAt m i f')
    (hheight : f.stack.length = f'.stack.length) :
    Realised handsBack obtainAt m i (f.merged f') := by
  have hshape := h.sameShape.of_height h'.sameShape hheight
  have hmerged := h.sameShape.merged f'
  refine ⟨?_, ?_⟩
  · obtain ⟨p, g, hreads, hg⟩ := h.reached
    exact ⟨p, g, hreads, hmerged.trans hg⟩
  · intro q v hv hinstance
    obtain ⟨a, b, ha, hb, rfl⟩ := Frame.value?_merged hshape hv
    -- an instance in the merged frame is one in the first frame or in the second
    by_cases hinstance' : a.isInstance = true
    · obtain ⟨p, g, hreads, hg, htrue⟩ := h.isInstance q a ha hinstance'
      exact ⟨p, g, hreads, hmerged.trans hg, htrue⟩
    · have hinstance'' : b.isInstance = true := by
        cases a <;> cases b <;> first | rfl | exact absurd rfl hinstance' | cases hinstance
      obtain ⟨p, g, hreads, hg, htrue⟩ := h'.isInstance q b hb hinstance''
      exact ⟨p, g, hreads, (hmerged.trans hshape).trans hg, htrue⟩

end Realised
end PoolLint
