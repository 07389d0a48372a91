import BibTemplate.Text.Blank
import BibTemplate.Text.Position
import BibTemplate.Text.Alphanumeric
import BibTemplate.Decimal.Layout
import BibTemplate.Json.Reader
import BibTemplate.Json.Printer
import BibTemplate.Value.Text
import BibTemplate.Template.Draft
import BibTemplate.Template.Printer
import BibTemplate.Render.Eval
import BibTemplate.Render.OptionsJson
import BibTemplate.Cache.Recency
import BibTemplate.Preview
import BibTemplate.Main
import BibTemplate.Proofs.Cache.Eviction
import BibTemplate.Proofs.Cache.Lru
import BibTemplate.Proofs.Cache.Recency
import BibTemplate.Proofs.Cache.Refinement
import BibTemplate.Proofs.Decimal.Numerals
import BibTemplate.Proofs.Filter.Names
import BibTemplate.Proofs.Outcomes
import BibTemplate.Proofs.Render.Denotation
import BibTemplate.Proofs.Template.Canonical
import BibTemplate.Proofs.Template.Concatenation
import BibTemplate.Proofs.Template.Cutting
import BibTemplate.Proofs.Template.Grammar
import BibTemplate.Proofs.Template.RoundTrip
import BibTemplate.Proofs.Template.TagBody
import BibTemplate.Proofs.Template.Tokens
import BibTemplate.Proofs.Text.Places
import BibTemplate.Proofs.Text.Trimming
import BibTemplate.Proofs.Text.Words
import BibTemplate.Cache.Shared
import BibTemplate.Proofs.Cache.Holding
import BibTemplate.Proofs.Cache.Interleaving
import BibTemplate.Proofs.Render.Clauses
import BibTemplate.Proofs.Render.Complements
import BibTemplate.Proofs.Text.Lines
import BibTemplate.Proofs.Template.TagDefects
import BibTemplate.Proofs.Template.Prefixes
import BibTemplate.Proofs.Template.Defects
import BibTemplate.Proofs.Render.Mentions
import BibTemplate.Proofs.Value.Parts
import BibTemplate.Proofs.Value.Documents
import BibTemplate.Proofs.Json.Scalars
import BibTemplate.Proofs.Json.RoundTrip
import BibTemplate.Proofs.Cache.Histories
import BibTemplate.Proofs.CommandLine.Directories
import BibTemplate.Proofs.CommandLine.Stages
import BibTemplate.Proofs.CommandLine.Flags
import BibTemplate.Proofs.CommandLine.AddedFlag
import BibTemplate.Proofs.CommandLine.Arrays
import BibTemplate.Proofs.CommandLine.EntryPoints
import BibTemplate.Proofs.CommandLine.Modes
import BibTemplate.Proofs.Cache.Reuse
import BibTemplate.Proofs.Render.Resolution
import BibTemplate.Proofs.Render.Descent
import BibTemplate.Proofs.Render.Separators
import BibTemplate.Proofs.Template.Spans
import BibTemplate.Proofs.Render.Verbatim
import BibTemplate.Proofs.Render.Modes
import BibTemplate.Proofs.Scopes.Histories
import BibTemplate.Proofs.Scopes.Binders
import BibTemplate.Proofs.Value.Lookup
import BibTemplate.Proofs.Filter.Letters
import BibTemplate.Proofs.Filter.Chains
import BibTemplate.Proofs.Filter.TitleWords
import BibTemplate.Proofs.Filter.Capitals
import BibTemplate.Proofs.Value.Indexing
