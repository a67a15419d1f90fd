import PoolLint.Check.Context

/-!
# Checking a class in two passes

The first pass over a class is precise: it notes which kinds are obtained and released, and
follows each instance of a flow-checked kind through its method. If a kind is obtained,
nowhere released and not settled by a precise check, the checker asks its host for a second
pass. That pass is coarse: it reports every place where such a kind is obtained, except those
the first pass has settled.
-/

namespace PoolLint

open PoolLint.Bytecode PoolLint.Flow

/-- Where a checker stands in the treatment of a class. -/
inductive Phase where
  | initial
  | scanning
  | maybeRescan
  | rescanning
  | done
deriving DecidableEq, Repr

/-- The word for a phase. -/
def Phase.name : Phase → String
  | initial => "Initial"
  | scanning => "Scanning"
  | maybeRescan => "MaybeRescan"
  | rescanning => "Rescanning"
  | done => "Done"

/-- How a class is checked. `parallel` only says how the work may be spread; it has no
influence on the outcome. -/
structure CheckOptions where
  parallel : Bool
  /-- A second pass is made where the checker asks for one. -/
  rescan : Bool
  severity : Severity
deriving DecidableEq, Repr

/-- A checker in the course of its work. -/
structure Checker where
  table : ResourceTable
  options : CheckOptions
  phase : Phase
  context : UnitContext
  collector : Collector
deriving DecidableEq, Repr

namespace Checker

/-- A checker that has seen no class. -/
def new (t : ResourceTable) (options : CheckOptions) : Checker :=
  ⟨t, options, .initial, .new t, .empty⟩

/-- Starts a class: all that was known is forgotten. -/
def beforeUnit (c : Checker) : Checker :=
  { c with context := .new c.table, phase := .scanning }

/-- The diagnostic of a finding. -/
def diagnostic (c : Checker) (unit : ClassFile) (site : Site) (kind : ResourceKind)
    (finding : FindingKind) : Diagnostic :=
  { finding.draft kind.simpleName with
    resource := some kind.name
    severity := c.options.severity
    location := unit.methods[site.1]?.map fun m => .ofInstruction unit m site.2 }.build

/-- Reports a finding, unless it is reported already. -/
def report (c : Checker) (unit : ClassFile) (site : Site) (id : Nat) (finding : FindingKind) :
    Checker :=
  if (site, finding) ∈ c.context.reported then c
  else
    let context := { c.context with reported := c.context.reported ++ [(site, finding)] }
    match c.table.kind? id with
    | none => { c with context := context }
    | some kind =>
      { c with
        context := context
        collector := c.collector.submit (c.diagnostic unit site kind finding) }

/-- Changes what is known. -/
def withContext (c : Checker) (g : UnitContext → UnitContext) : Checker :=
  { c with context := g c.context }

/-! ## The precise pass -/

/-- Takes the outcome of a precise check into account. A check that was given up settles its
place, but neither reports anything nor handles the kind. -/
def record (unit : ClassFile) (c : Checker) (o : FlowOutcome) : Checker :=
  let (method, index) := o.job.site
  let c := c.withContext fun ctx => { ctx with settled := insertNew (method, index) ctx.settled }
  match o.result with
  | .error _ => c.withContext fun ctx => { ctx with aborted := ctx.aborted + 1 }
  | .ok report =>
    let c := report.doubleReleases.foldl
      (fun c i => c.report unit (method, i) o.job.kind .alreadyRecycled) c
    let c :=
      if report.verdict = .leaked then c.report unit (method, index) o.job.kind .leaked else c
    c.withContext (·.noteHandled o.job.kind)

/-- Notes the roles of all calls, and then takes in the precise checks. -/
def precisePass (c : Checker) (unit : ClassFile) : Checker :=
  let c := (classCalls unit).foldl
    (fun c placed => c.withContext (·.noteRole (c.table.classify placed.call))) c
  (flowOutcomes c.table unit).foldl (record unit) c

/-! ## The coarse pass -/

/-- Looks at one call again. -/
def coarseCall (unit : ClassFile) (c : Checker) (placed : PlacedCall) : Checker :=
  match c.table.classify placed.call with
  | some (.release id) => c.withContext (·.noteReleased id)
  | some (.obtain id) =>
    if (c.context.flagsOf id).looksLeaky && !c.context.settled.contains placed.site then
      c.report unit placed.site id .leaked
    else c
  | none => c

/-- Looks at all calls again. -/
def coarsePass (c : Checker) (unit : ClassFile) : Checker :=
  (classCalls unit).foldl (coarseCall unit) c

/-! ## The course of a check -/

/-- Makes the pass that the phase calls for; outside of the two scanning phases a scan does
nothing. -/
def scan (c : Checker) (unit : ClassFile) : Checker :=
  match c.phase with
  | .scanning => c.precisePass unit
  | .rescanning => c.coarsePass unit
  | _ => c

/-- Ends a pass; after the first one the answer tells whether a second is asked for. -/
def afterUnit (c : Checker) : Checker × Bool :=
  match c.phase with
  | .scanning =>
    if c.context.needsRescan && !c.context.rescanRequested then
      ({ c with phase := .maybeRescan, context := { c.context with rescanRequested := true } },
        true)
    else ({ c with phase := .done }, false)
  | .rescanning | .maybeRescan => ({ c with phase := .done }, false)
  | .initial | .done => (c, false)

/-- Accepts the request for a second pass; the answer tells whether there was one. -/
def beginRescan (c : Checker) : Checker × Bool :=
  if c.phase = .maybeRescan ∧ c.context.rescanRequested then
    ({ c with phase := .rescanning }, true)
  else (c, false)

/-- The diagnostics in order. -/
def finish (c : Checker) : List Diagnostic :=
  c.collector.sorted

end Checker

/-! ## Checking whole classes -/

/-- The outcome of checking a class. -/
structure UnitReport where
  unit : String
  diagnostics : List Diagnostic
  /-- The second pass was made. -/
  rescanned : Bool
  flags : List (String × KindFlags)
  aborted : Nat
deriving DecidableEq, Repr

/-- Checks a class: one pass, and a second one if it is asked for and allowed. -/
def checkUnit (t : ResourceTable) (options : CheckOptions) (unit : ClassFile) : UnitReport :=
  let c := ((Checker.new t options).beforeUnit.scan unit)
  let (c, requested) := c.afterUnit
  let (c, rescanned) := if requested && options.rescan then c.beginRescan else (c, false)
  let c := if rescanned then ((c.scan unit).afterUnit).1 else c
  { unit := unit.name
    diagnostics := c.finish
    rescanned := rescanned
    flags := c.context.flags
    aborted := c.context.aborted }

/-- Checks classes one by one. -/
def checkEach (t : ResourceTable) (options : CheckOptions) (units : List ClassFile) :
    List UnitReport :=
  units.map (checkUnit t options)

/-- The diagnostics of all classes, in order. -/
def checkUnits (t : ResourceTable) (options : CheckOptions) (units : List ClassFile) :
    List Diagnostic :=
  ((checkEach t options units).foldl
    (fun (collected : Collector) report => collected.extend report.diagnostics) .empty).sorted

end PoolLint
