import ApiModel.Proofs.Schema.Invariant

/-!
# Containers and their elements

An array or dictionary shows the type of its element, and the model of the element as its link.

**Theorem (`coherent_model`).** A container repeats the type of its link, and so does its link if
that is a container, however deep the containers are nested.
-/

namespace ApiModel

/-- What tells two types apart: the full type, its outermost part, and its inner part. -/
def TypeExpr.descriptor (t : TypeExpr) : String × String × Option String :=
  (t.type, t.base, t.template)

/-- A model has the same type as its link, and the link as its own. -/
inductive Model.Coherent : Model → Prop
  | unlinked {m : Model} : m.link = none → m.Coherent
  | linked {m l : Model} : m.link = some l → m.descriptor = l.descriptor → l.Coherent → m.Coherent

namespace Schema

open Model

theorem descriptor_of_core {m l : Model} (h : m.core = l) : m.descriptor = l.descriptor := by
  rw [← h]
  rfl

/-- A step keeps it that models are coherent: only containers have links. -/
theorem coherent_step {ctx : Context} : KeptByStep ctx (fun _ => True) Coherent := by
  intro build isDefinition name s m _ hbuild h
  obtain ⟨r, hr, hmade⟩ := modelStep_made h
  cases hmade with
  | container href hlink hcore =>
    exact .linked (link_of_core hcore :) (descriptor_of_core hcore :)
      (hbuild _ (.element hr href) _ hlink)
  | reference hcore => exact .unlinked (link_of_core hcore)
  | enumeration hcore => exact .unlinked (link_of_core hcore)
  | referenceContainer _ hcore => exact .unlinked (link_of_core hcore)
  | composition _ _ _ hcore => exact .unlinked (link_of_core hcore)
  | interface _ hcore => exact .unlinked (link_of_core hcore)
  | named hcore => exact .unlinked (link_of_core hcore)
  | anything hcore => exact .unlinked (link_of_core hcore)

/-- A model that is made has the type of its link at every depth. -/
theorem coherent_model {ctx : Context} {s : Node} {isDefinition : Bool} {name : String} {m : Model}
    (h : (model ctx s isDefinition name).outcome = .ok m) : m.Coherent :=
  model_keeps coherent_step (fun _ _ => trivial) h

end Schema

end ApiModel
