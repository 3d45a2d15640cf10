import MovieAtoms.Atom
import MovieAtoms.Atom.Extension
import MovieAtoms.Atom.FileType
import MovieAtoms.Atom.Json
import MovieAtoms.Atom.MovieHeader
import MovieAtoms.Atom.Raw
import MovieAtoms.Atom.SampleDescription
import MovieAtoms.Atom.SampleTable
import MovieAtoms.Atom.Text
import MovieAtoms.Calendar
import MovieAtoms.Catalogue
import MovieAtoms.CommandLine.Arguments
import MovieAtoms.CommandLine.Report
import MovieAtoms.CommandLine.Run
import MovieAtoms.Decimal.Fixed
import MovieAtoms.DecodeError
import MovieAtoms.Directive
import MovieAtoms.Directory
import MovieAtoms.Directory.Tree
import MovieAtoms.Event
import MovieAtoms.Extract
import MovieAtoms.Header
import MovieAtoms.HexDump
import MovieAtoms.Json
import MovieAtoms.Json.Pretty
import MovieAtoms.Logged
import MovieAtoms.Main
import MovieAtoms.Payload
import MovieAtoms.Proofs.Calendar.Counting
import MovieAtoms.Proofs.Calendar.Timestamps
import MovieAtoms.Proofs.CommandLine.FrontEnds
import MovieAtoms.Proofs.CommandLine.Listing
import MovieAtoms.Proofs.HexDump.Reading
import MovieAtoms.Proofs.HexDump.Rows
import MovieAtoms.Proofs.Json.Records
import MovieAtoms.Proofs.Json.Same
import MovieAtoms.Proofs.Payload.FixedLayout
import MovieAtoms.Proofs.Payload.Inward
import MovieAtoms.Proofs.Payload.Width
import MovieAtoms.Proofs.Progress.Calls
import MovieAtoms.Proofs.Progress.Decoders
import MovieAtoms.Proofs.Progress.Loops
import MovieAtoms.Proofs.Progress.Walks
import MovieAtoms.Proofs.SampleTable.Chain
import MovieAtoms.Proofs.SampleTable.Count
import MovieAtoms.Proofs.SampleTable.Counter
import MovieAtoms.Proofs.SampleTable.Draft
import MovieAtoms.Proofs.SampleTable.Entries
import MovieAtoms.Proofs.SampleTable.Greedy
import MovieAtoms.Proofs.Script.Grammar
import MovieAtoms.Proofs.Script.Lines
import MovieAtoms.Proofs.Script.Names
import MovieAtoms.Proofs.Script.Printing
import MovieAtoms.Proofs.Source.Contents
import MovieAtoms.Proofs.Source.Counted
import MovieAtoms.Proofs.Source.Headers
import MovieAtoms.Proofs.Text.Digits
import MovieAtoms.Proofs.Text.SmallForm
import MovieAtoms.Proofs.Text.Spacing
import MovieAtoms.Proofs.Text.Tame
import MovieAtoms.Proofs.Text.TameLines
import MovieAtoms.Proofs.Text.Utf8
import MovieAtoms.Proofs.Text.Words
import MovieAtoms.Proofs.Walk.Account
import MovieAtoms.Proofs.Walk.Capture
import MovieAtoms.Proofs.Walk.Delivery
import MovieAtoms.Proofs.Walk.Forest
import MovieAtoms.Proofs.Walk.Hops
import MovieAtoms.Proofs.Walk.Ignored
import MovieAtoms.Proofs.Walk.Onward
import MovieAtoms.Proofs.Walk.Places
import MovieAtoms.Proofs.Walk.Quiet
import MovieAtoms.Proofs.Walk.Records
import MovieAtoms.Proofs.Walk.Search
import MovieAtoms.Proofs.Walk.Sizes
import MovieAtoms.Proofs.Walk.Sparing
import MovieAtoms.Proofs.Walk.Success
import MovieAtoms.Proofs.Walk.Yields
import MovieAtoms.Script
import MovieAtoms.Script.Mistake
import MovieAtoms.Source
import MovieAtoms.Source.Reading
import MovieAtoms.Tag
import MovieAtoms.Text.Ascii
import MovieAtoms.Text.Blank
import MovieAtoms.Text.Hex
import MovieAtoms.Text.LowerCase
import MovieAtoms.Text.Quoted
import MovieAtoms.Text.Shapeless
import MovieAtoms.Text.Utf8
import MovieAtoms.Walk
import MovieAtoms.Walk.Basic
import MovieAtoms.Wire
import MovieAtoms.Proofs.CommandLine.Messages
