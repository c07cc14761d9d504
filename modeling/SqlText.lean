import SqlText.Expr.Build
import SqlText.Expr.Clauses
import SqlText.Expr.Equality
import SqlText.Expr.Lemmas
import SqlText.Json.Reader
import SqlText.Json.Writer
import SqlText.Session
import SqlText.Proofs.Layout.Text
import SqlText.Proofs.Layout.Normal
import SqlText.Proofs.Render.BuiltIn
import SqlText.Proofs.Render.Budget
import SqlText.Proofs.Handoff.Parts
import SqlText.Proofs.Handoff.Places
import SqlText.Proofs.Handoff.Listing
import SqlText.Proofs.Handoff.Records
import SqlText.Proofs.Handoff.Refusal
import SqlText.Proofs.Handoff.Isolation
import SqlText.Proofs.Handoff.Announcements
import SqlText.Proofs.Handoff.Redaction
import SqlText.Proofs.Render.Kinds
import SqlText.Proofs.Render.Sessions
import SqlText.Proofs.Temporal.Spelling
import SqlText.Proofs.Json.Decoding
import SqlText.Proofs.Json.Writing
import SqlText.Proofs.Json.Trees
import SqlText.Proofs.Json.Equality
import SqlText.Proofs.Text.Scanning
import SqlText.Proofs.Text.Strings
import SqlText.Proofs.Text.Nesting
import SqlText.Proofs.Text.Pieces
import SqlText.Proofs.Text.Contexts
import SqlText.Proofs.Text.Embedding
import SqlText.Proofs.Text.Openers
import SqlText.Proofs.Text.Comments
import SqlText.Proofs.Layout.Edits
import SqlText.Proofs.Text.Modifiers
import SqlText.Proofs.Render.Grouping
import SqlText.Proofs.Text.Leaves
import SqlText.Proofs.Text.PlusFree
import SqlText.Proofs.Text.Marks
import SqlText.Proofs.Text.Faithful
import SqlText.Proofs.Text.Dots
