import Phrasebook.Proofs.Session.Reached
import Phrasebook.Visit

/-!
# Two ways to visit a source file

A walk through the tree of a source file hands the calls to the session while it goes; a visit
collects them first.  Both come to the same end, and both stop at the same failure: whether a call
is one of a translation function depends on the names alone, and these never change.
-/

namespace Phrasebook.Session

open Source

variable {session : Session} {tree : FileTree} {step : Step}

namespace Step

@[simp] theorem done_andThen (session : Session) (next : Session → Step) :
    session.done.andThen next = next session := by
  simp [andThen, done]

@[simp] theorem andThen_done (step : Step) : step.andThen done = step := by
  obtain ⟨session, notices, result⟩ := step
  cases result with
  | error error => rfl
  | ok _ => simp [andThen, done]

theorem andThen_assoc (step : Step) (next later : Session → Step) :
    (step.andThen next).andThen later =
      step.andThen fun session => (next session).andThen later := by
  obtain ⟨session, notices, result⟩ := step
  cases result with
  | error error => rfl
  | ok _ =>
      simp only [andThen]
      cases second : (next session).result with
      | error error => simp only [second]
      | ok _ => simp only [List.append_assoc]

/-- Only what follows the session of a step matters to the step after it. -/
theorem andThen_congr {next other : Session → Step}
    (same : next step.session = other step.session) : step.andThen next = step.andThen other := by
  unfold andThen
  rw [same]

end Step

theorem registerAll_append (session : Session) (tree : FileTree) (front back : List CallSite) :
    session.registerAll tree (front ++ back) =
      (session.registerAll tree front).andThen fun session => session.registerAll tree back := by
  induction front generalizing session with
  | nil => rw [registerAll, Step.done_andThen, List.nil_append]
  | cons call rest ih =>
      rw [List.cons_append, registerAll, registerAll, Step.andThen_assoc]
      apply Step.andThen_congr
      exact ih _

theorem options_register (session : Session) (tree : FileTree) (call : CallSite) :
    (session.register tree call).session.options = session.options := by
  have entered : (session.enter tree).session.options = session.options := by
    rcases enter_session session tree with same | ⟨store, _, _, same⟩
    · rw [same]
    · rw [same]
  rcases register_session session tree call with same | ⟨catalog, _, _, merged⟩
  · rw [same, entered]
  · obtain ⟨counts, calls, equal⟩ := (session.enter tree).session.merge_eq catalog call
    rw [merged, equal, entered]

theorem options_registerAll (session : Session) (tree : FileTree) (calls : List CallSite) :
    (session.registerAll tree calls).session.options = session.options := by
  induction calls generalizing session with
  | nil => rfl
  | cons call rest ih =>
      rw [registerAll, Step.andThen]
      split
      · exact options_register session tree call
      · exact (ih _).trans (options_register session tree call)

/-- The calls of translation functions among some call expressions, for the names of a session. -/
def sitesOf (session : Session) (file : File) (calls : List CallExpression) : List CallSite :=
  calls.filterMap (file.site? session.options.fnNames)

theorem sitesOf_append (session : Session) (file : File) (front back : List CallExpression) :
    session.sitesOf file (front ++ back) =
      session.sitesOf file front ++ session.sitesOf file back :=
  List.filterMap_append

theorem sitesOf_registerAll (session : Session) (tree : FileTree) (sites : List CallSite)
    (file : File) (calls : List CallExpression) :
    (session.registerAll tree sites).session.sitesOf file calls = session.sitesOf file calls := by
  rw [sitesOf, options_registerAll, sitesOf]

/-- Registering the calls of one text and then those of another one is registering all of them. -/
theorem registerAll_sitesOf_append (session : Session) (tree : FileTree) (file : File)
    (front back : List CallExpression) :
    session.registerAll tree (session.sitesOf file (front ++ back)) =
      (session.registerAll tree (session.sitesOf file front)).andThen fun session =>
        session.registerAll tree (session.sitesOf file back) := by
  rw [sitesOf_append, registerAll_append]
  apply Step.andThen_congr
  rw [sitesOf_registerAll]

theorem callExpression_eq_registerAll (session : Session) (tree : FileTree) (file : File)
    (call : CallExpression) :
    session.callExpression tree file call =
      session.registerAll tree (session.sitesOf file [call]) := by
  unfold callExpression sitesOf
  cases found : file.site? session.options.fnNames call with
  | none => simp [found, registerAll]
  | some site =>
      simp only [List.filterMap_cons, found, List.filterMap_nil, registerAll]
      exact (Step.andThen_done _).symm

mutual

/-- A walk through a tree registers the calls in it, one after the other. -/
theorem walkNode_eq_registerAll (session : Session) (tree : FileTree) (file : File) :
    (node : Node) → session.walkNode tree file node =
      session.registerAll tree (session.sitesOf file node.callExpressions)
  | .ident _ => rfl
  | .string _ => rfl
  | .call start stop callee arguments types => by
      rw [walkNode, Node.callExpressions, ← List.singleton_append, registerAll_sitesOf_append,
        callExpression_eq_registerAll]
      apply Step.andThen_congr
      rw [List.append_assoc, registerAll_sitesOf_append, walkNode_eq_registerAll]
      apply Step.andThen_congr
      rw [registerAll_sitesOf_append, walkNodes_eq_registerAll]
      apply Step.andThen_congr
      exact walkNodes_eq_registerAll _ tree file types
  | .node _ children => walkNodes_eq_registerAll session tree file children

theorem walkNodes_eq_registerAll (session : Session) (tree : FileTree) (file : File) :
    (nodes : List Node) → session.walkNodes tree file nodes =
      session.registerAll tree (session.sitesOf file (Node.callsOfAll nodes))
  | [] => rfl
  | first :: rest => by
      rw [walkNodes, Node.callsOfAll, registerAll_sitesOf_append, walkNode_eq_registerAll]
      apply Step.andThen_congr
      exact walkNodes_eq_registerAll _ tree file rest

end

/-- Visiting a file and walking through it, up to the first failure, leave the same session, tell
the same and have the same result, whatever the state of the session, the files on disk and the
calls in the file are. -/
theorem visitFile_eq_walkFile (session : Session) (tree : FileTree) (file : File) :
    session.visitFile tree file = session.walkFile tree file := by
  rw [walkFile, walkNode_eq_registerAll]
  rfl

end Phrasebook.Session
