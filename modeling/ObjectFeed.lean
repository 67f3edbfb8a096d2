import ObjectFeed.Http
import ObjectFeed.Main
import ObjectFeed.Proofs.Feeds.Agreement
import ObjectFeed.Proofs.Feeds.IllFormed
import ObjectFeed.Proofs.Splitter.Meaning
import ObjectFeed.Proofs.Splitter.Balance
import ObjectFeed.Proofs.Utf8.Chunks
import ObjectFeed.Proofs.Json.Strictness
import ObjectFeed.PullFeed
import ObjectFeed.Records
import ObjectFeed.Settings.File
import ObjectFeed.Proofs.Json.Fusing
import ObjectFeed.Proofs.Feeds.Values
import ObjectFeed.Proofs.Feeds.Truncation
import ObjectFeed.Proofs.Feeds.Limits
import ObjectFeed.Proofs.Feeds.Order
import ObjectFeed.Proofs.Feeds.Closing
import ObjectFeed.Proofs.Feeds.Releasing
import ObjectFeed.Proofs.Feeds.Faults
import ObjectFeed.Proofs.Feeds.Courses
import ObjectFeed.Proofs.Feeds.Channels
import ObjectFeed.Proofs.Feeds.Interpreting
import ObjectFeed.Proofs.Feeds.Demand
import ObjectFeed.Proofs.Feeds.Accounts
import ObjectFeed.Proofs.Utf8.Reassembly
import ObjectFeed.Proofs.Feeds.LowerLimits
import ObjectFeed.Proofs.CommandLine.Lines
import ObjectFeed.Proofs.Feeds.Batches
import ObjectFeed.Proofs.Feeds.Readers
import ObjectFeed.Proofs.Splitter.Brackets
import ObjectFeed.Proofs.Splitter.Strings
import ObjectFeed.Proofs.Splitter.Registers
