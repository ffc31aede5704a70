import ArmRover.World.Ray

/-!
# Reading a world

A world is a list of mappings. Each names the shape of an obstacle, its measures, and possibly a
tag. The measures have to be there, and are plain data until a ray comes near.

* `Obstacle.ofFields?` — one obstacle.
* `World.ofList?` — the obstacles of a list, `World.ofValue?` — those of a world file.
-/

namespace ArmRover

/-- A measure of an obstacle, which has to be there. -/
def Obstacle.measure? (fields : Fields (Value α)) (key : String) :
    Except (Fault α) (Value α) :=
  match fields.get? key with
  | some v => .ok v
  | none => .error (.missing key)

/-- The obstacle that a mapping describes: a box, unless it names another shape, and solid, unless
it names a tag. -/
def Obstacle.ofFields? (fields : Fields (Value α)) : Except (Fault α) (Obstacle α) := do
  let shape := (fields.get? "shape").getD (.text "box")
  let tag := (fields.get? "tag").getD (.text solidTag)
  match shape with
  | .text "box" =>
    let xMin ← measure? fields "x_min"
    let xMax ← measure? fields "x_max"
    let zMin ← measure? fields "z_min"
    let zMax ← measure? fields "z_max"
    return ⟨.box xMin xMax zMin zMax, tag⟩
  | .text "circle" =>
    let x ← measure? fields "x"
    let z ← measure? fields "z"
    let radius ← measure? fields "radius"
    return ⟨.circle x z radius, tag⟩
  | shape => throw (.unknownShape shape)

namespace World

/-- The obstacles of a list of mappings. -/
def ofList? (items : List (Value α)) : Except (Fault α) (World α) :=
  items.mapM fun
    | .map fields => Obstacle.ofFields? fields
    | _ => .error .notAMapping

/-- The obstacles of a value that should be a list of mappings. The items of text and of mappings
are text, which describes no obstacle. -/
def ofItems? : Value α → Except (Fault α) (World α)
  | .list items => ofList? items
  | .text s => if s.isEmpty then .ok [] else .error .notAMapping
  | .map fields => if fields.isEmpty then .ok [] else .error .notAMapping
  | _ => .error .wrongKind

/-- The world of a world file: the list under `obstacles`, or an empty world. -/
def ofValue? [Scalar α] (file : Value α) : Except (Fault α) (World α) :=
  if !file.isSomething then .ok []
  else match file with
    | .map fields =>
      match Fields.get? "obstacles" fields with
      | some obstacles => ofItems? obstacles
      | none => .ok []
    | _ => .error .notAMapping

end World

end ArmRover
