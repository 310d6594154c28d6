import Retrace.CommandLine.Folder
import Retrace.Main
import Retrace.Options.Reading
import Retrace.Recording.Written
import Retrace.Proofs.Completeness
import Retrace.Proofs.Recording.Acceptance
import Retrace.Proofs.Recording.RoundTrip
import Retrace.Proofs.TranslationAppend
import Retrace.Proofs.BodyPrefix
import Retrace.Proofs.BuiltBlock
import Retrace.Proofs.Layout.Legible
import Retrace.Proofs.Layout.Spacing
import Retrace.Proofs.Script.HandleScope
import Retrace.Proofs.Script.QuotedField
import Retrace.Proofs.Recording.OddField
import Retrace.Proofs.Script.DeclaredName
import Retrace.Proofs.CheckedTest
import Retrace.Proofs.FrameUrl
import Retrace.Proofs.Script.Passes
import Retrace.Proofs.IdleEvent
import Retrace.Proofs.Script.FirstUse
import Retrace.Proofs.Recording.WholeField
import Retrace.Proofs.CommandLine.Stages
import Retrace.Proofs.Recording.MissingField
import Retrace.Proofs.Script.SeparatedLines
import Retrace.Proofs.Script.OwnHandle
import Retrace.Proofs.Number.PlainText
import Retrace.Proofs.Recording.ViewportSide
import Retrace.Proofs.Script.ViewportLine
import Retrace.Proofs.DroppedEvent
import Retrace.Proofs.Recording.OwnField
import Retrace.Proofs.Script.CookieOption
import Retrace.Proofs.RegistryHistory
