import QueryMix.Main
import QueryMix.Proofs.Bracket.Balance
import QueryMix.Proofs.Bracket.Split
import QueryMix.Proofs.Bracket.Region
import QueryMix.Proofs.Bracket.Parts
import QueryMix.Proofs.Bracket.Matching
import QueryMix.Proofs.Text.Width
import QueryMix.Proofs.Text.Order
import QueryMix.Proofs.Word.Alternatives
import QueryMix.Proofs.Word.NormalForm
import QueryMix.Proofs.Formula.Count
import QueryMix.Proofs.Formula.Encode
import QueryMix.Proofs.Field
import QueryMix.Proofs.Field.Parts
import QueryMix.Proofs.Formula.Decode
import QueryMix.Proofs.Formula.ReadBack
import QueryMix.Proofs.Formula.Classification
import QueryMix.Proofs.Formula.RoundTrip
import QueryMix.Proofs.Formula.BracketCheck
import QueryMix.Proofs.Mix.Operations
import QueryMix.Proofs.Mix.Tidy
import QueryMix.Proofs.Json.Literal
import QueryMix.Proofs.Mix.Listing
import QueryMix.Proofs.Formula.Regions
import QueryMix.Proofs.Formula.Spelling
import QueryMix.Proofs.Formula.Written
import QueryMix.Proofs.Mix.Additions
import QueryMix.Proofs.Mix.Output
import QueryMix.Proofs.Mix.Fresh
import QueryMix.Proofs.Mix.Conservation
import QueryMix.Proofs.Command.Persistence
import QueryMix.Proofs.Word.Canonical
import QueryMix.Proofs.Word.Groups
import QueryMix.Proofs.Word.Search
import QueryMix.Proofs.Formula.StageOrder
import QueryMix.Proofs.Formula.Filled
import QueryMix.Proofs.Formula.Width
import QueryMix.Proofs.Formula.EmptyWords
import QueryMix.Proofs.Formula.DefaultCount
import QueryMix.Proofs.Mix.Building
import QueryMix.Proofs.Mix.Sorting
import QueryMix.Proofs.Mix.Reordering
import QueryMix.Proofs.Mix.InPlace
import QueryMix.Proofs.Bracket.Cuts
import QueryMix.Proofs.Bracket.Language
import QueryMix.Proofs.Bracket.Layers
import QueryMix.Proofs.Formula.ByOffset
import QueryMix.Proofs.Trace.Caret
