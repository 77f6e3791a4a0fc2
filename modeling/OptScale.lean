import OptScale.Auth.ActionResources
import OptScale.Auth.Granted
import OptScale.Auth.Tables
import OptScale.Auth.Userlist
import OptScale.Bookings.Booking
import OptScale.Bookings.Current
import OptScale.Bookings.Observer
import OptScale.Bookings.Overlap
import OptScale.Bumiworker.Agreement
import OptScale.Bumiworker.Body
import OptScale.Bumiworker.Changes
import OptScale.Bumiworker.Continuations
import OptScale.Bumiworker.Fields
import OptScale.Bumiworker.Queue
import OptScale.Bumiworker.Results
import OptScale.Bumiworker.Tasks
import OptScale.CloudAccounts.AllOrNothing
import OptScale.CloudAccounts.Children
import OptScale.CloudAccounts.Create
import OptScale.Clusters.Applied
import OptScale.Clusters.Apply
import OptScale.Clusters.Bind
import OptScale.Clusters.Binding
import OptScale.Clusters.Change
import OptScale.Clusters.Choice
import OptScale.Clusters.ClusterType
import OptScale.Clusters.Exclusion
import OptScale.Clusters.Frame
import OptScale.Clusters.Keeping
import OptScale.Clusters.Lifetime
import OptScale.Clusters.Members
import OptScale.Clusters.Priorities
import OptScale.Discovery.Saved
import OptScale.Discovery.Worker
import OptScale.Diworker.AlibabaMonths
import OptScale.Diworker.AwsDays
import OptScale.Diworker.AwsImporter
import OptScale.Diworker.AwsRecords
import OptScale.Diworker.AwsReport
import OptScale.Diworker.AwsTags
import OptScale.Diworker.AzureReservations
import OptScale.Diworker.AzureRetry
import OptScale.Diworker.AzureUsage
import OptScale.Diworker.Databricks
import OptScale.Diworker.Environment
import OptScale.Diworker.GcpBilling
import OptScale.Diworker.GcpImporter
import OptScale.Diworker.Generate
import OptScale.Diworker.Importer
import OptScale.Diworker.Kubernetes
import OptScale.Diworker.NetExpenses
import OptScale.Diworker.NodePricing
import OptScale.Diworker.PodShares
import OptScale.Diworker.RawDocuments
import OptScale.Diworker.RawRecords
import OptScale.Diworker.Recalculate
import OptScale.Diworker.ReportAgreement
import OptScale.Diworker.ReportForms
import OptScale.Diworker.ReportSlices
import OptScale.Diworker.Repriced
import OptScale.Diworker.Window
import OptScale.Employees.Deletion
import OptScale.Employees.Redirected
import OptScale.Expenses.Breakdown
import OptScale.Expenses.Formatted
import OptScale.Foundations.Agreed
import OptScale.Foundations.Attempts
import OptScale.Foundations.Calendar
import OptScale.Foundations.Chunks
import OptScale.Foundations.Descent
import OptScale.Foundations.Dict
import OptScale.Foundations.Fallible
import OptScale.Foundations.Followers
import OptScale.Foundations.Forest
import OptScale.Foundations.Grouped
import OptScale.Foundations.Interleave
import OptScale.Foundations.Latest
import OptScale.Foundations.Ledger
import OptScale.Foundations.Mailbox
import OptScale.Foundations.Moves
import OptScale.Foundations.Overwritten
import OptScale.Foundations.Pieces
import OptScale.Foundations.Queries
import OptScale.Foundations.Renewal
import OptScale.Foundations.Replacements
import OptScale.Foundations.Run
import OptScale.Foundations.Saturation
import OptScale.Foundations.Session
import OptScale.Foundations.SetOrder
import OptScale.Foundations.Slot
import OptScale.Foundations.Sweep
import OptScale.Foundations.Table
import OptScale.Foundations.Upserts
import OptScale.Foundations.Watermark
import OptScale.Foundations.Windows
import OptScale.Gemini.Completeness
import OptScale.Gemini.Matrix
import OptScale.Gemini.Search
import OptScale.Gemini.Stream
import OptScale.Katara.Changes
import OptScale.Katara.Fired
import OptScale.Katara.Generations
import OptScale.Katara.Reports
import OptScale.Katara.Schedules
import OptScale.Katara.Steps
import OptScale.Katara.Stranded
import OptScale.Metroculus.Containers
import OptScale.Metroculus.PodMetrics
import OptScale.Pools.Alert
import OptScale.Pools.Costs
import OptScale.Pools.Covering
import OptScale.Pools.Extension
import OptScale.Pools.Limits
import OptScale.Pools.Minimal
import OptScale.Pools.Pool
import OptScale.Pools.Rearm
import OptScale.Pools.Reassign
import OptScale.Pools.Totals
import OptScale.Pools.Tree
import OptScale.Pools.Visible
import OptScale.PowerSchedule.Action
import OptScale.PowerSchedule.Latest
import OptScale.PowerSchedule.Spelling
import OptScale.PowerSchedule.Task
import OptScale.Resources.Assignment
import OptScale.Resources.Operators
import OptScale.Resources.Requests
import OptScale.Resources.Resource
import OptScale.Resources.SaveBulk
import OptScale.Resources.Saved
import OptScale.Resources.Sharing
import OptScale.Resources.Store
import OptScale.Resources.Tags
import OptScale.Resources.Upsert
import OptScale.Rest.Database
import OptScale.Rest.Failure
import OptScale.Rest.Organization
import OptScale.Rest.Priority
import OptScale.Rest.Ranked
import OptScale.Rest.Services
import OptScale.Rest.Text
import OptScale.RiBreakdown.Complete
import OptScale.RiBreakdown.Flavors
import OptScale.RiBreakdown.Report
import OptScale.Risp.Base
import OptScale.Risp.Covered
import OptScale.Risp.Offers
import OptScale.Risp.Placeholders
import OptScale.Risp.Uncovered
import OptScale.Rules.Assignment
import OptScale.Rules.Conditioned
import OptScale.Rules.Conditions
import OptScale.Rules.Decision
import OptScale.Rules.Editing
import OptScale.Rules.Priorities
import OptScale.Rules.Reapplied
import OptScale.Rules.Reapply
import OptScale.Rules.Rule
import OptScale.Rules.Stored
import OptScale.Rules.Validity
import OptScale.Rules.WellFormed
import OptScale.Trapper.Clouds
import OptScale.Trapper.Processor
import OptScale.Trapper.Worker
import OptScale.Violations.Batches
import OptScale.Violations.ClusterData
import OptScale.Violations.Constraint
import OptScale.Violations.ExpiringBudget
import OptScale.Violations.LimitHits
import OptScale.Violations.RedGreen
import OptScale.Violations.ResourceHits
import OptScale.Violations.Tagging
import OptScale.Resources.SeenDates
