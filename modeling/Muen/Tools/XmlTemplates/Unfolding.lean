import Muen.Tools.XmlTemplates.Rounds

/-!
# Unfolding a document

What the expansion is for: each call stands for the body of its template, in which the calls stand for bodies in the
same way. The rounds give the document that is unfolded so, where the definitions of all instances are added first.
-/

namespace Muen.Tools.XmlTemplates
open Muen.Lib
open scoped List

variable {templates : List Node}

section Independent

variable {doc doc' : Nodes} {templateCall : Label} {callChildren body : Nodes}

end Independent

/-! ### The run -/

section Run

variable {doc doc' : Nodes} {i : Instance} {instances : List Instance}

lemma Expands.documentWellFormed (hdoc : DocumentWellFormed doc) (hstep : Expands templates i doc doc') :
    DocumentWellFormed doc' := by
  obtain ⟨body, hbody, hcalls, -, hroots⟩ := hstep.wellFormed.output.body
  have hR := hstep.replaced
  unfold Instance.body at hR
  rw [hbody, Option.getD_some] at hR
  exact (hdoc.withDefinitions hstep.wellFormed.output).replaced hstep.compiled.call hroots hcalls hR

end Run

section Expand

variable {doc doc' : Nodes}

/-- The document after the expansion: the nested call has got the third number. -/
def exampleExpanded : Nodes :=
  .cons (.element "system" [])
    (.cons (.element "config" [])
      (.cons (.element "integer" [("name", ['n']), ("value", ['1'])]) .nil
        (.cons (.element "integer" [("name", ['t', '1', '_', 'y']), ("value", ['$', 'n'])]) .nil
          (.cons (.element "integer" [("name", ['t', '2', '_', 'x']), ("value", ['$', 'n'])]) .nil
            (.cons (.element "integer" [("name", ['t', '1', '_', 't', '3', '_', 'x']),
              ("value", ['$', 't', '1', '_', 'y'])]) .nil .nil))))
      (.cons (.element "component" [])
        (.cons (.element "memory" [("size", ['$', 't', '1', '_', 't', '3', '_', 'x'])]) .nil .nil)
        (.cons (.element "memory" [("size", ['$', 't', '2', '_', 'x'])]) .nil .nil))) .nil

end Expand

end Muen.Tools.XmlTemplates
