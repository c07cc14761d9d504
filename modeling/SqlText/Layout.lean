/-!
# Layouts

A layout is the plan of a rendering: which pieces of text follow one another, and where a query has
to be handed to whoever renders queries. Tokens are text of the grammar (keywords, operators,
blanks, brackets); verbatim pieces are texts that a tree holds and that are written as they are.

A query appears in a layout as its `Body`, not as text, because a query renderer may write it in its
own way. A body keeps the condition of a select apart from what stands before and after it, which
is all that any renderer looks at. The word that introduces a select is not in the body: whoever
writes the select opens it.
-/

namespace SqlText

mutual

/-- The plan of a rendering. -/
inductive Layout where
  /-- Nothing. -/
  | empty
  /-- Text of the grammar. -/
  | token (text : String)
  /-- Text that the tree holds. -/
  | verbatim (text : String)
  /-- One layout after another. -/
  | append (first second : Layout)
  /-- A part whose queries are always rendered in the built-in way. -/
  | isolated (inner : Layout)
  /-- A common table of a query, handed to the query renderer. -/
  | commonTable (name : String) (columns : List String) (body : Body)
  /-- A query, handed to the query renderer. -/
  | query (body : Body)

/-- The plan of a query. -/
inductive Body where
  /-- A select behind its introducing word: up to the condition, the condition, and behind it. -/
  | select (before condition after : Layout)
  /-- Two queries and the set operator between them. -/
  | compound (left : Body) (joiner : String) (right : Body)

end

namespace Layout

instance : Inhabited Layout := ⟨.empty⟩

instance : Append Layout := ⟨.append⟩

/-- A layout that is there only under a condition. -/
def onlyIf (condition : Bool) (layout : Layout) : Layout :=
  if condition then layout else .empty

/-- The layout of a part that may be absent. -/
def ofOption {α : Type} (part : Option α) (layout : α → Layout) : Layout :=
  match part with
  | none => .empty
  | some a => layout a

/-- Layouts one after another. -/
def concat : List Layout → Layout
  | [] => .empty
  | first :: rest => first ++ concat rest

/-- Layouts with a separator between them. -/
def separatedBy (separator : String) : List Layout → Layout
  | [] => .empty
  | [last] => last
  | first :: rest => first ++ .token separator ++ separatedBy separator rest

/-- Layouts with commas between them. -/
def commaSeparated (parts : List Layout) : Layout :=
  separatedBy ", " parts

/-- A layout in round brackets. -/
def bracketed (inner : Layout) : Layout :=
  .token "(" ++ inner ++ .token ")"

/-- A verbatim text in quotes. -/
def quoted (text : String) : Layout :=
  .token "'" ++ .verbatim text ++ .token "'"

end Layout

end SqlText
