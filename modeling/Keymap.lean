import Keymap.Terminal
import Keymap.Json.Reader
import Keymap.Watch
import Keymap.Main
import Keymap.Proofs.Active.Invariant
import Keymap.Proofs.Active.Linearization
import Keymap.Proofs.Active.Log
import Keymap.Proofs.Active.Reload
import Keymap.Proofs.Active.Runs
import Keymap.Proofs.Bindings.Assembly
import Keymap.Proofs.Bindings.Display
import Keymap.Proofs.Bindings.Firing
import Keymap.Proofs.Bindings.Outcome
import Keymap.Proofs.Bindings.Patterns
import Keymap.Proofs.Bindings.Revision
import Keymap.Proofs.Chord.Characters
import Keymap.Proofs.Chord.Matching
import Keymap.Proofs.Chord.Typing
import Keymap.Proofs.Command.Lines
import Keymap.Proofs.Command.ListJson
import Keymap.Proofs.Command.Overrides
import Keymap.Proofs.Command.Trials
import Keymap.Proofs.ConfigFile.Expansion
import Keymap.Proofs.ConfigFile.Form
import Keymap.Proofs.ConfigFile.Layout
import Keymap.Proofs.ConfigFile.Line
import Keymap.Proofs.ConfigFile.LineOrder
import Keymap.Proofs.ConfigFile.Listing
import Keymap.Proofs.ConfigFile.Names
import Keymap.Proofs.ConfigFile.Substitution
import Keymap.Proofs.ConfigFile.TwoPass
import Keymap.Proofs.ConfigFile.Variables
import Keymap.Proofs.Conflict.Dispatch
import Keymap.Proofs.Conflict.Pairs
import Keymap.Proofs.Conflict.Report
import Keymap.Proofs.Files.Frame
import Keymap.Proofs.Files.Rooted
import Keymap.Proofs.Files.Template
import Keymap.Proofs.Files.Writing
import Keymap.Proofs.Json.RoundTrip
import Keymap.Proofs.Json.Spelling
import Keymap.Proofs.Pattern.Grammar
import Keymap.Proofs.Pattern.Parts
import Keymap.Proofs.Pattern.Rearrangement
import Keymap.Proofs.Pattern.RoundTrip
import Keymap.Proofs.Pattern.Vocabulary
import Keymap.Proofs.Text.ByteOrder
import Keymap.Proofs.Watch.Changes
import Keymap.Proofs.Watch.Interleaving
import Keymap.Proofs.Watch.Questions
