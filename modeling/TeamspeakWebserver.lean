import TeamspeakWebserver.Interruptible.Logic
import TeamspeakWebserver.Manager.State
import TeamspeakWebserver.Manager.Program
import TeamspeakWebserver.Manager.Composition
import TeamspeakWebserver.Manager.Interference
import TeamspeakWebserver.Manager.Ownership
import TeamspeakWebserver.Manager.Frame
import TeamspeakWebserver.Manager.Pipes
import TeamspeakWebserver.Manager.Suspension
import TeamspeakWebserver.Manager.Restarts
import TeamspeakWebserver.Manager.Termination
import TeamspeakWebserver.Manager.PollArray
import TeamspeakWebserver.Sessions.Framing
import TeamspeakWebserver.Sessions.Bounds
import TeamspeakWebserver.Ltc.Database
import TeamspeakWebserver.Ltc.BusyPeriods
import TeamspeakWebserver.Ltc.Calendar
import TeamspeakWebserver.Text.Search
import TeamspeakWebserver.Ltc.Lines
import TeamspeakWebserver.Ltc.ClientLine
import TeamspeakWebserver.Ltc.Pipelines
import TeamspeakWebserver.Ltc.Agreement
import TeamspeakWebserver.Manager.Notices
import TeamspeakWebserver.Manager.Deaths
import TeamspeakWebserver.Interruptible.Total
import TeamspeakWebserver.Manager.Tending
import TeamspeakWebserver.Manager.Retries
import TeamspeakWebserver.Manager.Apart
import TeamspeakWebserver.Manager.PollSet
import TeamspeakWebserver.Manager.Dispatch
import TeamspeakWebserver.Interruptible.Surroundings
import TeamspeakWebserver.Manager.Stalls
import TeamspeakWebserver.Batches.Accumulation
import TeamspeakWebserver.Batches.Draining
import TeamspeakWebserver.Ltc.Reordering
import TeamspeakWebserver.Text.Split
import TeamspeakWebserver.Webserver.GlobalMessage
import TeamspeakWebserver.Batches.Ranking
import TeamspeakWebserver.Webserver.Lights
import TeamspeakWebserver.Ltc.Report
import TeamspeakWebserver.Webserver.ClientTimes
import TeamspeakWebserver.Ltc.Elapsed
import TeamspeakWebserver.Ltc.Nicknames
import TeamspeakWebserver.Ltc.Malformed
import TeamspeakWebserver.Ltc.Extraction
import TeamspeakWebserver.Webserver.ServerMessages
import TeamspeakWebserver.Labelled.Runs
import TeamspeakWebserver.Webserver.LightPages
import TeamspeakWebserver.Webserver.Registry
import TeamspeakWebserver.Linked.Ring
import TeamspeakWebserver.Sessions.Handler
import TeamspeakWebserver.Sessions.Teardown
import TeamspeakWebserver.Bot.Dispatch
import TeamspeakWebserver.Linked.Sequence
import TeamspeakWebserver.Lists.Operations
import TeamspeakWebserver.Buffers.Bounded
import TeamspeakWebserver.Buffers.Strings
import TeamspeakWebserver.Manager.Log
import TeamspeakWebserver.Manager.ModuleOutput
import TeamspeakWebserver.Client.Commands
import TeamspeakWebserver.Client.Interactive
import TeamspeakWebserver.Text.Scanner
import TeamspeakWebserver.Webserver.Scanning
import TeamspeakWebserver.Interruptible.Observed
import TeamspeakWebserver.Manager.Grammar
import TeamspeakWebserver.Maps.Grouping
import TeamspeakWebserver.Webserver.ClientList
import TeamspeakWebserver.Manager.Startup
import TeamspeakWebserver.Interruptible.Sequencing
import TeamspeakWebserver.Manager.Progress
import TeamspeakWebserver.Manager.Shutdown
import TeamspeakWebserver.Manager.Turns
import TeamspeakWebserver.Manager.Stopping
import TeamspeakWebserver.Manager.Launches
import TeamspeakWebserver.Client.Exchange
import TeamspeakWebserver.Client.Lockstep
import TeamspeakWebserver.Ltc.Printing
import TeamspeakWebserver.Ltc.Reporting
import TeamspeakWebserver.Webserver.Broadcasts
import TeamspeakWebserver.Webserver.ClientPage
import TeamspeakWebserver.Webserver.Relay
import TeamspeakWebserver.Webserver.FrontPage
import TeamspeakWebserver.Bot.Conversation
import TeamspeakWebserver.Bot.LtcReport
import TeamspeakWebserver.Lists.Walks
import TeamspeakWebserver.Webserver.ChatRoom
import TeamspeakWebserver.Manager.Overrun
