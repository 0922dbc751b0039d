import StoryMarkup.Proofs.Markup.Comments
import StoryMarkup.Proofs.Markup.Lines
import StoryMarkup.Proofs.Markup.LinkSyntax
import StoryMarkup.Proofs.Render.Captures
import StoryMarkup.Proofs.Render.Delays
import StoryMarkup.Proofs.Render.LiteralText
import StoryMarkup.Proofs.Render.Paragraphs
import StoryMarkup.Proofs.Render.Recovery
import StoryMarkup.Proofs.Script.Balance
import StoryMarkup.Proofs.Script.Equality
import StoryMarkup.Proofs.Script.Radix
import StoryMarkup.Proofs.Script.Limits
import StoryMarkup.Proofs.Script.Locations
import StoryMarkup.Proofs.Script.Purity
import StoryMarkup.Proofs.Script.Randomness
import StoryMarkup.Proofs.Script.Reparsing
import StoryMarkup.Proofs.Script.Sorts
import StoryMarkup.Proofs.Script.Slices
import StoryMarkup.Proofs.Script.Strictness
import StoryMarkup.Proofs.Script.TextLengths
import StoryMarkup.Proofs.Script.Traversal
import StoryMarkup.Proofs.Session.FatalErrors
import StoryMarkup.Proofs.Session.Lifecycle
import StoryMarkup.Proofs.Session.Snapshots
