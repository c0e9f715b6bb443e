import SubLang.Arena.Rendering
import SubLang.Main
import SubLang.Proofs.Reading.Item
import SubLang.Proofs.Reading.Draft
import SubLang.Proofs.Reading.DraftArena
import SubLang.Proofs.Reading.Lockstep
import SubLang.Proofs.Reading.Wrapper
import SubLang.Proofs.Reading.Derivation
import SubLang.Proofs.Reading.ViablePrefix
import SubLang.Proofs.Number.ReadBack
import SubLang.Proofs.Arena.Canonical
import SubLang.Proofs.Text.Seams
import SubLang.Proofs.Reading.CanonicalText
import SubLang.Proofs.Reading.Weight
import SubLang.Proofs.Reading.RoundTrip
import SubLang.Proofs.Arena.Walk
import SubLang.Proofs.Reading.Look
import SubLang.Proofs.Reading.Place
import SubLang.Proofs.Arena.Fills
import SubLang.Proofs.Reading.Ownership
import SubLang.Proofs.Reading.Nesting
import SubLang.Proofs.Reading.Contract
import SubLang.Proofs.Reading.WhiteSpace
import SubLang.Proofs.Reading.Context
import SubLang.Proofs.Reading.Concatenation
import SubLang.Proofs.Report.Caret
import SubLang.Proofs.Number.Rounding
import SubLang.Proofs.Reading.Token
import SubLang.Proofs.Log.Console
import SubLang.Proofs.Settings.Request
import SubLang.Proofs.Settings.Overlay
import SubLang.Proofs.Settings.Layers
import SubLang.Proofs.Command.Shell
import SubLang.Proofs.Report.Shown
import SubLang.Proofs.Command.FileCheck
import SubLang.Proofs.Command.Batch
import SubLang.Proofs.Settings.Agreement
import SubLang.Proofs.Report.Column
import SubLang.Proofs.Settings.Change
import SubLang.Proofs.Reading.Buffer
import SubLang.Proofs.Reading.InnerReading
import SubLang.Proofs.Reading.MatchingBracket
import SubLang.Proofs.Report.Json
import SubLang.Proofs.Report.Export
import SubLang.Proofs.Text.Boundaries
import SubLang.Proofs.Reading.Termination
