import ArchiveCensus.Announcement
import ArchiveCensus.Archive
import ArchiveCensus.Archive.Checksum
import ArchiveCensus.Archive.Entry
import ArchiveCensus.Archive.Inflate
import ArchiveCensus.Cadence
import ArchiveCensus.Cadence.Timeline
import ArchiveCensus.Campaign
import ArchiveCensus.CommandLine
import ArchiveCensus.CommandLine.Census
import ArchiveCensus.CommandLine.Listing
import ArchiveCensus.CommandLine.Options
import ArchiveCensus.Correlation
import ArchiveCensus.Decimal
import ArchiveCensus.Decimal.Reading
import ArchiveCensus.Delivery
import ArchiveCensus.Dictionary
import ArchiveCensus.Disk
import ArchiveCensus.Disk.Pattern
import ArchiveCensus.Disk.Search
import ArchiveCensus.Environment
import ArchiveCensus.Event
import ArchiveCensus.ExpiringStore
import ArchiveCensus.FileName
import ArchiveCensus.Fingerprint
import ArchiveCensus.Inspection
import ArchiveCensus.Location
import ArchiveCensus.Location.Host
import ArchiveCensus.LogSetup
import ArchiveCensus.Manifest
import ArchiveCensus.Notice
import ArchiveCensus.Number
import ArchiveCensus.PackageUrl
import ArchiveCensus.Path
import ArchiveCensus.Properties
import ArchiveCensus.Receiver
import ArchiveCensus.Record
import ArchiveCensus.Record.Draft
import ArchiveCensus.Record.Sheet
import ArchiveCensus.Registration
import ArchiveCensus.Roster
import ArchiveCensus.Service
import ArchiveCensus.Settings
import ArchiveCensus.Source
import ArchiveCensus.Survey
import ArchiveCensus.Survey.Resolution
import ArchiveCensus.Text.Blank
import ArchiveCensus.Text.Case
import ArchiveCensus.Text.CaseTable
import ArchiveCensus.Text.CodePage
import ArchiveCensus.Text.CodePoint
import ArchiveCensus.Text.Digit
import ArchiveCensus.Text.Lines
import ArchiveCensus.Text.Percent
import ArchiveCensus.Text.PrintTable
import ArchiveCensus.Text.Quoted
import ArchiveCensus.Text.Search
import ArchiveCensus.Text.Span
import ArchiveCensus.Text.Utf16
import ArchiveCensus.Text.Utf8
import ArchiveCensus.Value
import ArchiveCensus.Value.Json
import ArchiveCensus.Main
import ArchiveCensus.Proofs.Correlation
import ArchiveCensus.Proofs.Correlation.Leftover
import ArchiveCensus.Proofs.Delivery
import ArchiveCensus.Proofs.Campaign
import ArchiveCensus.Proofs.Campaign.Closing
import ArchiveCensus.Proofs.ExpiringStore
import ArchiveCensus.Proofs.ExpiringStore.History
import ArchiveCensus.Proofs.Campaign.Interleaving
import ArchiveCensus.Proofs.Disk
import ArchiveCensus.Proofs.Disk.Search
import ArchiveCensus.Proofs.Survey.Afresh
import ArchiveCensus.Proofs.Survey.Asking
import ArchiveCensus.Proofs.Survey.Isolation
import ArchiveCensus.Proofs.Campaign.Interleaving.Offers
import ArchiveCensus.Proofs.ExpiringStore.Bound
import ArchiveCensus.Proofs.ExpiringStore.Eviction
import ArchiveCensus.Proofs.Cadence
import ArchiveCensus.Proofs.Cadence.Change
import ArchiveCensus.Proofs.Cadence.Completion
import ArchiveCensus.Proofs.Survey.Trail
import ArchiveCensus.Proofs.Survey.Round
import ArchiveCensus.Proofs.Survey.Lineage
import ArchiveCensus.Proofs.Survey.Truncation
import ArchiveCensus.Proofs.Survey.Breakdown
import ArchiveCensus.Proofs.Survey.Arguments
import ArchiveCensus.Proofs.Survey.Relocation
import ArchiveCensus.Proofs.Survey.Staleness
import ArchiveCensus.Proofs.Survey.Retention
import ArchiveCensus.Proofs.Survey.Counting
import ArchiveCensus.Proofs.Cadence.Stages
import ArchiveCensus.Proofs.Cadence.Requests
import ArchiveCensus.Proofs.Cadence.Pace
import ArchiveCensus.Proofs.Cadence.Undisturbed
import ArchiveCensus.Proofs.Cadence.Punctual
import ArchiveCensus.Proofs.Properties.Joining
import ArchiveCensus.Proofs.Properties.Writing
import ArchiveCensus.Proofs.Properties.RoundTrip
import ArchiveCensus.Proofs.Lines
import ArchiveCensus.Proofs.Properties.LineEnds
import ArchiveCensus.Proofs.Manifest
import ArchiveCensus.Proofs.Manifest.Folding
import ArchiveCensus.Proofs.Utf8
import ArchiveCensus.Proofs.Percent
import ArchiveCensus.Proofs.Location
import ArchiveCensus.Proofs.PackageUrl
import ArchiveCensus.Proofs.PackageUrl.Shape
import ArchiveCensus.Proofs.Inspection
import ArchiveCensus.Proofs.Inspection.Place
import ArchiveCensus.Proofs.Inspection.Scratch
import ArchiveCensus.Proofs.Inspection.Directory
import ArchiveCensus.Proofs.PackageUrl.Identity
import ArchiveCensus.Proofs.FileName
import ArchiveCensus.Proofs.Inspection.Completeness
import ArchiveCensus.Proofs.PackageUrl.Classifier
import ArchiveCensus.Proofs.PackageUrl.Parts
import ArchiveCensus.Proofs.PackageUrl.Encoding
import ArchiveCensus.Proofs.Location.FileUrl
import ArchiveCensus.Proofs.Source
import ArchiveCensus.Proofs.Event
import ArchiveCensus.Proofs.Fingerprint
import ArchiveCensus.Proofs.CommandLine
import ArchiveCensus.Proofs.CommandLine.Census
import ArchiveCensus.Proofs.Json
import ArchiveCensus.Proofs.CommandLine.Listing
import ArchiveCensus.Proofs.Properties.Pairing
import ArchiveCensus.Proofs.Survey.Confinement
import ArchiveCensus.Proofs.Announcement
import ArchiveCensus.Proofs.Service
import ArchiveCensus.Proofs.Record.Draft
import ArchiveCensus.Proofs.FileName.Suffixes
