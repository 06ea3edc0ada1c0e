import TrafficGate.Capture.Record
import TrafficGate.Capture.Replay
import TrafficGate.CommandLine.Arguments
import TrafficGate.CommandLine.FileTree
import TrafficGate.CommandLine.Folder
import TrafficGate.CommandLine.Session
import TrafficGate.CommandLine.StoreFile
import TrafficGate.CommandLine.StoreName
import TrafficGate.Describe
import TrafficGate.Digest.Sha256
import TrafficGate.Digest.SipHash
import TrafficGate.Engine.Backend
import TrafficGate.Engine.Basic
import TrafficGate.Engine.Config
import TrafficGate.Engine.Describe
import TrafficGate.Exchange.Pending
import TrafficGate.Exchange.Request
import TrafficGate.Exchange.Response
import TrafficGate.Flow
import TrafficGate.Http.Carve
import TrafficGate.Http.Chunked
import TrafficGate.Http.Flaw
import TrafficGate.Http.Head
import TrafficGate.Http.Message
import TrafficGate.Http.Resync
import TrafficGate.Http.StartLine
import TrafficGate.Json.Double
import TrafficGate.Json.Member
import TrafficGate.Json.Parse
import TrafficGate.Json.Render
import TrafficGate.Json.Token
import TrafficGate.Json.Value
import TrafficGate.Main
import TrafficGate.Proofs.Absorption
import TrafficGate.Proofs.Acts
import TrafficGate.Proofs.Agreement
import TrafficGate.Proofs.AnswerStreams
import TrafficGate.Proofs.Base64Texts
import TrafficGate.Proofs.BlockEnforcement
import TrafficGate.Proofs.BoundedState
import TrafficGate.Proofs.ByteConservation
import TrafficGate.Proofs.CacheEntries
import TrafficGate.Proofs.CachedAnswers
import TrafficGate.Proofs.CanonicalSpelling
import TrafficGate.Proofs.CaptureTexts
import TrafficGate.Proofs.CarriedBodies
import TrafficGate.Proofs.CarvingBounds
import TrafficGate.Proofs.CheckedIndexes
import TrafficGate.Proofs.ChunkedCoding
import TrafficGate.Proofs.CodingExtent
import TrafficGate.Proofs.Collaborators
import TrafficGate.Proofs.Conservation
import TrafficGate.Proofs.Correlation
import TrafficGate.Proofs.DigestNames
import TrafficGate.Proofs.DigitStrings
import TrafficGate.Proofs.DomainSpellings
import TrafficGate.Proofs.EngineFragmentation
import TrafficGate.Proofs.Exchanges
import TrafficGate.Proofs.FailedRequests
import TrafficGate.Proofs.FaithfulBodies
import TrafficGate.Proofs.FirstOccurrence
import TrafficGate.Proofs.FlowIsolation
import TrafficGate.Proofs.Fragmentation
import TrafficGate.Proofs.FramingNumbers
import TrafficGate.Proofs.HeadAlignment
import TrafficGate.Proofs.HeadLines
import TrafficGate.Proofs.InputRuns
import TrafficGate.Proofs.InterruptedCalls
import TrafficGate.Proofs.JoinedLists
import TrafficGate.Proofs.JsonTexts
import TrafficGate.Proofs.KeptBodies
import TrafficGate.Proofs.LineStarts
import TrafficGate.Proofs.Lockstep
import TrafficGate.Proofs.LoggedRuns
import TrafficGate.Proofs.LoggedVerdicts
import TrafficGate.Proofs.LongestRule
import TrafficGate.Proofs.Moments
import TrafficGate.Proofs.NamedUrls
import TrafficGate.Proofs.NormalForms
import TrafficGate.Proofs.OverflowTransparency
import TrafficGate.Proofs.PendingQueues
import TrafficGate.Proofs.PercentEscapes
import TrafficGate.Proofs.Repetitions
import TrafficGate.Proofs.RequestDecisions
import TrafficGate.Proofs.ResumedSearches
import TrafficGate.Proofs.Resumption
import TrafficGate.Proofs.Resynchronisation
import TrafficGate.Proofs.RoundTrips
import TrafficGate.Proofs.RuleConditions
import TrafficGate.Proofs.RuleStores
import TrafficGate.Proofs.RuleTables
import TrafficGate.Proofs.Runs
import TrafficGate.Proofs.SearchingBuffers
import TrafficGate.Proofs.ServedKeys
import TrafficGate.Proofs.ShortBytes
import TrafficGate.Proofs.SteadyRules
import TrafficGate.Proofs.StepExtension
import TrafficGate.Proofs.StepVeils
import TrafficGate.Proofs.StoredBodies
import TrafficGate.Proofs.StrictJson
import TrafficGate.Proofs.UncollectedBodies
import TrafficGate.Proofs.UrlSpellings
import TrafficGate.Proofs.VeiledBuffers
import TrafficGate.Proofs.Veils
import TrafficGate.Proofs.WrittenHeads
import TrafficGate.Proofs.WrittenMessages
import TrafficGate.Proofs.WrittenTexts
import TrafficGate.Proofs.WrittenTimes
import TrafficGate.ReadFault
import TrafficGate.Rule.Cache
import TrafficGate.Rule.Kind
import TrafficGate.Rule.Matcher
import TrafficGate.Rule.Source
import TrafficGate.Store.Blobs
import TrafficGate.Store.Condition
import TrafficGate.Store.Database
import TrafficGate.Store.Describe
import TrafficGate.Store.Fault
import TrafficGate.Store.Journal
import TrafficGate.Store.Log
import TrafficGate.Store.Rules
import TrafficGate.Store.Snapshot
import TrafficGate.Stream.Accumulator
import TrafficGate.Stream.Buffers
import TrafficGate.Stream.Carving
import TrafficGate.Stream.Fragments
import TrafficGate.Table
import TrafficGate.Text.Ascii
import TrafficGate.Text.Base64
import TrafficGate.Text.Blank
import TrafficGate.Text.Hex
import TrafficGate.Text.Keyword
import TrafficGate.Text.Largest
import TrafficGate.Text.Latin1
import TrafficGate.Text.Numeral
import TrafficGate.Text.Order
import TrafficGate.Text.Quoted
import TrafficGate.Text.Search
import TrafficGate.Text.Seq
import TrafficGate.Text.Unseen
import TrafficGate.Text.Utf8
import TrafficGate.Time.Civil
import TrafficGate.Time.Timestamp
import TrafficGate.Url.Canonical
import TrafficGate.Url.Percent
import TrafficGate.Verdict.Blobs
import TrafficGate.Verdict.Dispatcher
import TrafficGate.Verdict.Event
import TrafficGate.Verdict.Journal
