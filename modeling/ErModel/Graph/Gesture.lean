import ErModel.Edit.Intent
import ErModel.Graph.Canvas

/-!
# Gestures

What somebody does on the picture, and what is meant by it.
-/

namespace ErModel

/-- Something done on the picture. -/
inductive Gesture where
  | connect (source target : TableId) (column : Option ColumnId)
  | disconnect (edge : JoinId)
  | select (edge : JoinId)
  | move (table : TableId) (position : Position)

/-- What a gesture asks for. -/
inductive Gesture.Meaning where
  | edit (intent : Intent)
  | select (join : JoinId)
  | move (table : TableId) (position : Position)

/-- What is meant by a gesture; a new join takes the given actions. -/
def Gesture.meaning (onDelete onUpdate : Action) : Gesture → Gesture.Meaning
  | .connect source target column => .edit (.connect source target column onDelete onUpdate)
  | .disconnect edge => .edit (.deleteJoin edge)
  | .select edge => .select edge
  | .move table position => .move table position

end ErModel
