import Phrasebook.Session
import Phrasebook.Source.Calls

/-!
# Visiting source files

The calls of a source file reach a session in one of two ways: all of them together,
or one by one from a walk through the tree of the file.
-/

namespace Phrasebook.Session

open Source

/-- Register a call expression of a file, if it calls a translation function. -/
def callExpression (session : Session) (tree : FileTree) (file : File)
    (call : CallExpression) : Step :=
  match file.site? session.options.fnNames call with
  | some site => session.register tree site
  | none => session.done

mutual

/-- Hand over the call expressions of a tree as they are met, each before those inside
it, up to the first failure. -/
def walkNode (session : Session) (tree : FileTree) (file : File) : Node → Step
  | .ident _ => session.done
  | .string _ => session.done
  | .call start stop callee arguments types =>
      (session.callExpression tree file ⟨start, stop, callee, arguments⟩).andThen
        fun session => (walkNode session tree file callee).andThen
          fun session => (walkNodes session tree file arguments).andThen
            fun session => walkNodes session tree file types
  | .node _ children => walkNodes session tree file children

/-- Hand over the call expressions of some trees, up to the first failure. -/
def walkNodes (session : Session) (tree : FileTree) (file : File) : List Node → Step
  | [] => session.done
  | first :: rest =>
      (walkNode session tree file first).andThen
        fun session => walkNodes session tree file rest

end

/-- Hand over every call expression of a file as it is met in its tree. -/
def walkFile (session : Session) (tree : FileTree) (file : File) : Step :=
  session.walkNode tree file file.tree

/-- Register all translation calls of a file together. -/
def visitFile (session : Session) (tree : FileTree) (file : File) : Step :=
  session.registerAll tree (file.calls session.options.fnNames)

end Phrasebook.Session
