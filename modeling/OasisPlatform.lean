import OasisPlatform.ArrayOps
import OasisPlatform.PathText
import OasisPlatform.SubjectAtRisk
import OasisPlatform.KeysCollection
import OasisPlatform.InputGeneration
import OasisPlatform.PreSplit
import OasisPlatform.SharedRow
import OasisPlatform.Models
import OasisPlatform.AnalysisTasks
import OasisPlatform.Cancellation
import OasisPlatform.Json
import OasisPlatform.Starting
import OasisPlatform.SubTasks
import OasisPlatform.SubTaskProgress
import OasisPlatform.StartOrder
import OasisPlatform.StartRequests
import OasisPlatform.Dispatch
import OasisPlatform.HandOver
import OasisPlatform.RunIsolation
import OasisPlatform.ProgressPings
import OasisPlatform.NoKeys
import OasisPlatform.ChunkFailure
import OasisPlatform.Redelivery
import OasisPlatform.FloatQuotients
import OasisPlatform.AutoscalerRules
import OasisPlatform.WorkerDeployments
import OasisPlatform.QueueNames
import OasisPlatform.Autoscaler
import OasisPlatform.WorkerLimit
import OasisPlatform.DelayedCleanup
import OasisPlatform.QueueStatus
import OasisPlatform.GroupAccess
import OasisPlatform.AnalysisViews
import OasisPlatform.AnalysisIsolation
import OasisPlatform.PortfolioFiles
import OasisPlatform.ScalingOptions
import OasisPlatform.FailureStatus
import OasisPlatform.StartAtomicity
import OasisPlatform.CancelEffects
import OasisPlatform.LogContexts
import OasisPlatform.CallPrograms
import OasisPlatform.InternalJobs
import OasisPlatform.OedValidation
import OasisPlatform.ReadCommitted
import OasisPlatform.OidcLogins
import OasisPlatform.OidcWrites
import OasisPlatform.OidcIdentity
import OasisPlatform.OidcNames
import OasisPlatform.OidcArchive
import OasisPlatform.DesiredWorkers
import OasisPlatform.ChunkCounts
import OasisPlatform.Dictionaries
import OasisPlatform.ListSelections
import OasisPlatform.QueuedWork
import OasisPlatform.StageSlugs
import OasisPlatform.StepLogs
import OasisPlatform.Canvas
import OasisPlatform.StageChains
import OasisPlatform.SubTaskIds
import OasisPlatform.ChainIds
import OasisPlatform.Worklist
import OasisPlatform.GuardedFetch
import OasisPlatform.PrepareDirectories
import OasisPlatform.RunPaths
import OasisPlatform.CompleteInputs
import OasisPlatform.LossInputs
import OasisPlatform.EventCounts
import OasisPlatform.OpenApiSchemas
import OasisPlatform.DirectoryTrees
import OasisPlatform.MergedRuns
import OasisPlatform.FileConversions
import OasisPlatform.UrlText
import OasisPlatform.FileFormats
import OasisPlatform.FileReplacement
import OasisPlatform.Tables
import OasisPlatform.WorkerRegistration
import OasisPlatform.SettingsPrecedence
import OasisPlatform.AnalysisRows
import OasisPlatform.FilePlaces
import OasisPlatform.AnalysisDeletion
import OasisPlatform.AnalysisCopies
import OasisPlatform.DeploymentWatch
import OasisPlatform.SteadyScaling
import OasisPlatform.RowCounts
import OasisPlatform.RunsProceed
import OasisPlatform.ReferencesFound
import OasisPlatform.RepeatedCleanups
