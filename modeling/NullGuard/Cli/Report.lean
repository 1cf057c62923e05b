import NullGuard.Cli.Args
import NullGuard.Document.Data
import NullGuard.Document.Shape
import NullGuard.Eval.Evaluate

/-!
The report on a query document: the query without and with guards, and on demand how many there
are and what both versions evaluate to.
-/

namespace NullGuard.Cli

/-- How an evaluation ended. -/
inductive Outcome where
  | value (text : String)
  | fault (text : String)
  deriving DecidableEq, Inhabited

structure StatsReport where
  stats : GuardStats
  cachedFallbacks : Nat
  deriving DecidableEq, Inhabited

structure EvaluationReport where
  plain : Outcome
  guarded : Outcome
  deriving DecidableEq, Inhabited

structure Report where
  plain : String
  guarded : String
  ty : String
  stats : Option StatsReport
  evaluation : Option EvaluationReport
  deriving DecidableEq, Inhabited

namespace Args

def guardOptions (args : Args) : GuardOptions :=
  let options : GuardOptions := { emptyCollections := args.emptyCollections }
  match args.maxDepth with
  | some maxDepth => { options with maxDepth }
  | none => options

end Args

def Outcome.ofEvaluation (context : Context) (e : Expr) (env : Env) : Outcome :=
  match (context.evaluate e env .empty).1 with
  | .ok result => .value result.text
  | .error (.fault error) => .fault error.message
  | .error .outOfFuel => .fault "the evaluation does not end"

def evaluationReport (document : Document) (defs : Definitions) (plain guarded : Expr) :
    DocumentM EvaluationReport := do
  let env ← document.environment defs
  let context : Context := ⟨defs, .builtin⟩
  return ⟨.ofEvaluation context plain env, .ofEvaluation context guarded env⟩

/-- Inserts guards into the query of a document. The data is looked at only for an evaluation and
only after that has succeeded. -/
def process (document : Document) (args : Args) : DocumentM Report := do
  let defs ← document.declareTypes Collection.definitions
  let expr ← document.expr defs
  let (result, cache) := expr.insertGuards defs args.guardOptions .empty
  let guarded ← match result with
    | .ok guarded => .ok guarded
    | .error error => .error ⟨[.guarding], .guards error⟩
  let evaluation ←
    if args.eval then some <$> evaluationReport document defs expr guarded.expr else pure none
  return {
    plain := expr.text defs
    guarded := guarded.expr.text defs
    ty := guarded.expr.ty.text defs
    stats := if args.stats then some ⟨guarded.stats, cache.size⟩ else none
    evaluation }

/-- The report on the text of a document. -/
def run (text : String) (args : Args) : DocumentM Report :=
  match Document.read? text with
  | some document => process document args
  | none => DocumentM.fail .malformed

/-! ### Output -/

/-- A label and blanks up to the column in which texts begin. -/
def label (name : String) : String :=
  name ++ String.ofList (List.replicate (12 - name.length) ' ')

def line (name text : String) : String :=
  label name ++ text ++ "\n"

def Outcome.text : Outcome → String
  | value text => text
  | fault text => "fault: " ++ text

def StatsReport.text (report : StatsReport) : String :=
  s!"{report.stats.nodesVisited} nodes, {report.stats.coalesceGuards} coalesce, " ++
    s!"{report.stats.conditionalGuards} conditional, {report.cachedFallbacks} cached fallbacks"

def Report.text (report : Report) : String :=
  let stats := match report.stats with
    | some stats => line "stats:" stats.text
    | none => ""
  let evaluation := match report.evaluation with
    | some evaluation =>
      line "original =" evaluation.plain.text ++ line "rewritten =" evaluation.guarded.text
    | none => ""
  line "original:" report.plain ++ line "rewritten:" report.guarded ++
    line "type:" report.ty ++ stats ++ evaluation

def Outcome.json : Outcome → Json
  | value text => .object [("status", .string "value"), ("value", .string text)]
  | fault text => .object [("status", .string "fault"), ("error", .string text)]

def StatsReport.json (report : StatsReport) : Json :=
  .object [
    ("nodes_visited", .int report.stats.nodesVisited),
    ("coalesce_guards", .int report.stats.coalesceGuards),
    ("conditional_guards", .int report.stats.conditionalGuards),
    ("cached_fallbacks", .int report.cachedFallbacks)]

def EvaluationReport.json (report : EvaluationReport) : Json :=
  .object [("original", report.plain.json), ("rewritten", report.guarded.json)]

def Report.json (report : Report) : Json :=
  .object ([
    ("original", .string report.plain),
    ("rewritten", .string report.guarded),
    ("type", .string report.ty)] ++
    (report.stats.map fun stats => ("stats", stats.json)).toList ++
    (report.evaluation.map fun evaluation => ("evaluation", evaluation.json)).toList)

/-- The output in a format, which ends in one line end. -/
def Report.render (report : Report) : OutputFormat → String
  | .text => report.text
  | .json => report.json.pretty "" ++ "\n"

end NullGuard.Cli
