import ErModel.Edit.Joins
import ErModel.Exchange.Read

/-!
# Configurations of joins as JSON

What somebody chose about a join, as it is handed to an editor and shown by one.
-/

namespace ErModel.Exchange

/-- A configuration of a join. -/
def ofJoinConfig (config : JoinConfig) : Json :=
  .object [
    ("target", ofTarget config.target),
    ("type", .text config.kind.label),
    ("onDelete", .text (actionName config.onDelete)),
    ("onUpdate", .text (actionName config.onUpdate)),
    ("through", .textOrNull config.through),
    ("joinColumn", orNull ofJunctionColumn config.joinColumn),
    ("inverseColumn", orNull ofJunctionColumn config.inverseColumn)]

/-- A configuration of a join. Actions that are absent or null cascade. -/
def joinConfig? (value : Json) : Option JoinConfig := do
  let fields ← value.members?
  return {
    target := ← fields.required "target" target?
    kind := ← fields.required "type" (Json.choice? kinds)
    onDelete := (← fields.optional "onDelete" (Json.choice? actions)).getD .cascade
    onUpdate := (← fields.optional "onUpdate" (Json.choice? actions)).getD .cascade
    through := ← fields.optional "through" Json.text?
    joinColumn := ← fields.optional "joinColumn" junctionColumn?
    inverseColumn := ← fields.optional "inverseColumn" junctionColumn? }

end ErModel.Exchange
