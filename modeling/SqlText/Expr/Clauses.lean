import SqlText.Expr.Json
import SqlText.Expr.Text

/-!
# Clauses over expressions

The text and the JSON form of a clause whose parts are expressions: first those of the parts, then
the clause's own rule.
-/

namespace SqlText

/-! ## SQL text -/

/-- Expressions in brackets. -/
def Arguments.sql (arguments : List Expr) : String :=
  Arguments.text true (arguments.map Expr.sql)

/-- Items with the brackets that they bring along. -/
def Items.sql (items : Items Expr) : String := (items.map Expr.sql).text

/-- A call over the texts of its arguments. -/
def Call.sql (call : Call Expr) : String := (call.map Expr.sql).text

/-- An analytic function over the texts of its arguments and of its window. -/
def Analytic.sql (a : Analytic Expr) : String := (a.map Expr.sql).text

/-- A concatenation over the texts of its arguments and its ordering. -/
def GroupConcat.sql (g : GroupConcat Expr) : String := (g.map Expr.sql).text

/-- A case expression over the texts of its branches. -/
def Case.sql (c : Case Expr) : String := (c.map Expr.sql).text

/-- A keep clause over the texts of its ordering. -/
def Keep.sql (keep : Keep Expr) : String := (keep.map Expr.sql).text

/-- An ordering key over the text of its expression. -/
def OrderKey.sql (key : OrderKey Expr) : String := (key.map Expr.sql).text

/-- A sub-query with its common tables, in brackets if it has them. -/
def SubQuery.sql (sub : SubQuery Expr) : String := (sub.map Expr.sql).text

/-- A query without brackets and common tables. -/
def Query.sql (query : Query Expr) : String := (query.map Expr.sql).text

/-- A select over the texts of its clauses. -/
def Select.sql (select : Select Expr) : String := (select.map Expr.sql).text

/-- A common table with its query in brackets. -/
def CommonTable.sql (table : CommonTable Expr) : String := (table.map Expr.sql).text

/-- A bound over the text of its offset. -/
def FrameBound.sql (bound : FrameBound Expr) : String := (bound.map Expr.sql).text

/-- A frame over the texts of its offsets. -/
def Frame.sql (frame : Frame Expr) : String := (frame.map Expr.sql).text

/-! ## JSON -/

/-- A list of expressions in JSON; brackets are not exchanged with it. -/
def Arguments.toJson (arguments : List Expr) : Json :=
  Arguments.encode (arguments.map Expr.toJson)

/-- Reads a list of expressions, all of them or none. -/
def Arguments.ofJson? : Decoder (List Expr) := Arguments.decode Expr.ofJson?

/-- Items in JSON, under the tag of their kind. -/
def Items.toJson (items : Items Expr) : Json := (items.map Expr.toJson).encode

/-- Reads items whose values are expressions. -/
def Items.ofJson? : Decoder (Items Expr) := Items.decode Expr.ofJson?

/-- The left side of a membership test in JSON. -/
def Member.toJson (member : Member Expr) : Json := (member.map Expr.toJson).encode

/-- Reads the left side of a membership test. -/
def Member.ofJson? : Decoder (Member Expr) := Member.decode Expr.ofJson?

/-- A call in JSON, the arguments as a record of their own. -/
def Call.toJson (call : Call Expr) : Json := (call.map Expr.toJson).encode

/-- Reads a call whose arguments are expressions. -/
def Call.ofJson? : Decoder (Call Expr) := Call.decode Expr.ofJson?

/-- An analytic function in JSON, the fields that are not written in SQL included. -/
def Analytic.toJson (a : Analytic Expr) : Json := (a.map Expr.toJson).encode

/-- Reads an analytic function whose arguments are expressions. -/
def Analytic.ofJson? : Decoder (Analytic Expr) := Analytic.decode Expr.ofJson?

/-- A concatenation in JSON. -/
def GroupConcat.toJson (g : GroupConcat Expr) : Json := (g.map Expr.toJson).encode

/-- Reads a concatenation whose arguments are expressions. -/
def GroupConcat.ofJson? : Decoder (GroupConcat Expr) := GroupConcat.decode Expr.ofJson?

/-- A case expression in JSON, its branches as an array. -/
def Case.toJson (c : Case Expr) : Json := (c.map Expr.toJson).encode

/-- Reads a case expression with its branches. -/
def Case.ofJson? : Decoder (Case Expr) := Case.decode Expr.ofJson?

/-- A branch in JSON. -/
def When.toJson (branch : When Expr) : Json := (branch.map Expr.toJson).encode

/-- Reads a branch whose condition and result are expressions. -/
def When.ofJson? : Decoder (When Expr) := When.decode Expr.ofJson?

/-- A keep clause in JSON. -/
def Keep.toJson (keep : Keep Expr) : Json := (keep.map Expr.toJson).encode

/-- Reads a keep clause with its ordering. -/
def Keep.ofJson? : Decoder (Keep Expr) := Keep.decode Expr.ofJson?

/-- An ordering key in JSON. -/
def OrderKey.toJson (key : OrderKey Expr) : Json := (key.map Expr.toJson).encode

/-- Reads an ordering key of an expression. -/
def OrderKey.ofJson? : Decoder (OrderKey Expr) := OrderKey.decode Expr.ofJson?

/-- A sub-query in JSON, its common tables behind the query. -/
def SubQuery.toJson (sub : SubQuery Expr) : Json := (sub.map Expr.toJson).encode

/-- Reads a sub-query with its common tables. -/
def SubQuery.ofJson? : Decoder (SubQuery Expr) := SubQuery.decode Expr.ofJson?

/-- A query in JSON, nested as its set operators are. -/
def Query.toJson (query : Query Expr) : Json := (query.map Expr.toJson).encode

/-- Reads a query, however its set operators are nested. -/
def Query.ofJson? : Decoder (Query Expr) := Query.decode Expr.ofJson?

/-- A select in JSON, all of its clauses included. -/
def Select.toJson (select : Select Expr) : Json := (select.map Expr.toJson).encode

/-- Reads a select whose clauses hold expressions. -/
def Select.ofJson? : Decoder (Select Expr) := Select.decode Expr.ofJson?

/-- An entry of a select list in JSON. -/
def SelectItem.toJson (item : SelectItem Expr) : Json := (item.map Expr.toJson).encode

/-- Reads an entry of a select list. -/
def SelectItem.ofJson? : Decoder (SelectItem Expr) := SelectItem.decode Expr.ofJson?

/-- A common table in JSON. -/
def CommonTable.toJson (table : CommonTable Expr) : Json := (table.map Expr.toJson).encode

/-- Reads a common table with its query. -/
def CommonTable.ofJson? : Decoder (CommonTable Expr) := CommonTable.decode Expr.ofJson?

/-- A bound in JSON, its offset under the tag. -/
def FrameBound.toJson (bound : FrameBound Expr) : Json := (bound.map Expr.toJson).encode

/-- Reads a bound whose offset is an expression. -/
def FrameBound.ofJson? : Decoder (FrameBound Expr) := FrameBound.decode Expr.ofJson?

/-- The extent of a frame in JSON. -/
def FrameExtent.toJson (extent : FrameExtent Expr) : Json := (extent.map Expr.toJson).encode

/-- Reads the extent of a frame, one bound or two. -/
def FrameExtent.ofJson? : Decoder (FrameExtent Expr) := FrameExtent.decode Expr.ofJson?

/-- A frame in JSON. -/
def Frame.toJson (frame : Frame Expr) : Json := (frame.map Expr.toJson).encode

/-- Reads a frame with its extent. -/
def Frame.ofJson? : Decoder (Frame Expr) := Frame.decode Expr.ofJson?

end SqlText
