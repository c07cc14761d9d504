/-!
# JSON values

The form in which trees are stored and exchanged. An integer is kept exact; any other number keeps
its spelling only, because no tree holds one.

`Json.depth` counts how deeply containers are nested. It bounds every reading of a JSON value as a
tree, since a tree's parts are read from strictly shallower values.
-/

namespace SqlText

/-- A JSON value. The members of an object keep the order in which they were written. -/
inductive Json where
  | null
  | bool (value : Bool)
  | int (value : Int)
  | decimal (spelling : String)
  | str (text : String)
  | arr (items : List Json)
  | obj (members : List (String × Json))

namespace Json

instance : Inhabited Json := ⟨.null⟩

/-! ## Nesting -/

mutual

/-- How many containers lie inside one another at most. -/
def depth : Json → Nat
  | .arr items => depthItems items + 1
  | .obj members => depthMembers members + 1
  | _ => 0

/-- The greatest depth among the items of an array. -/
def depthItems : List Json → Nat
  | [] => 0
  | item :: rest => max item.depth (depthItems rest)

/-- The greatest depth among the members of an object. -/
def depthMembers : List (String × Json) → Nat
  | [] => 0
  | (_, value) :: rest => max value.depth (depthMembers rest)

end

/-! ## Access and construction -/

/-- The member called `key`; of several, the first. -/
def get? (key : String) : Json → Option Json
  | .obj members => members.lookup key
  | _ => none

/-- Sets a member: an earlier value under the same key is replaced in place. -/
def setMember (key : String) (value : Json) : List (String × Json) → List (String × Json)
  | [] => [(key, value)]
  | (k, v) :: rest => if k = key then (k, value) :: rest else (k, v) :: setMember key value rest

/-- An absent value is `null`. -/
def ofOption : Option Json → Json
  | none => .null
  | some value => value

/-- An absent text is `null`. -/
def ofText? (text : Option String) : Json :=
  ofOption (text.map .str)

/-- An absent number is `null`. -/
def ofNat? (n : Option Nat) : Json :=
  ofOption (n.map fun k => .int k)

/-- A tagged value: an object whose only key is the tag. -/
def tagged (tag : String) (payload : Json) : Json :=
  .obj [(tag, payload)]

end Json

end SqlText
