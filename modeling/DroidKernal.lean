import DroidKernal.Binder.RoundTrip
import DroidKernal.Log.Bounds
import DroidKernal.Log.Line
import DroidKernal.Log.Queue
import DroidKernal.Binder.Talk
import DroidKernal.Binder.Driver
import DroidKernal.Binder.Target
import DroidKernal.Utils.Contents
import DroidKernal.Lib.TimedQueue
import DroidKernal.Utils.Delivery
import DroidKernal.Lib.Threads
import DroidKernal.Utils.RefBase
import DroidKernal.Utils.Lifetime
import DroidKernal.Binder.ProcessState
import DroidKernal.Binder.HandleTable
import DroidKernal.Log.Own
import DroidKernal.Binder.Encoding
import DroidKernal.Binder.Stores
import DroidKernal.Lib.Blocks
import DroidKernal.Utils.LiveStrings
import DroidKernal.Utils.Polling
import DroidKernal.Utils.VectorValues
import DroidKernal.Binder.ContextManager
import DroidKernal.Binder.TransactionRefs
import DroidKernal.Binderfs.ContextsLive
import DroidKernal.Binderfs.Creation
import DroidKernal.Binderfs.Erasure
import DroidKernal.Binderfs.Numbers
import DroidKernal.Log.Resume
import DroidKernal.Log.Invisible
import DroidKernal.Log.FixUp
import DroidKernal.Log.Registry
import DroidKernal.Binder.CommandParser
import DroidKernal.Binder.WholeCommands
import DroidKernal.Binder.IoctlOutcome
import DroidKernal.Binder.ObjectsKept
import DroidKernal.Binder.ObjectBalance
import DroidKernal.Binder.Adoption
import DroidKernal.Binder.NodeLifetime
import DroidKernal.Binder.NodeTable
import DroidKernal.Binder.TableGrowth
import DroidKernal.Utils.TextRoundTrip
import DroidKernal.Utils.ThreadLifetime
import DroidKernal.Utils.VectorEditing
import DroidKernal.Utils.ListSemantics
import DroidKernal.Utils.ElementValues
import DroidKernal.Binder.ManagerAttempts
import DroidKernal.Binder.Descriptors
import DroidKernal.Binderfs.Remount
import DroidKernal.Utils.Timeouts
import DroidKernal.Utils.Measures
import DroidKernal.Utils.Comparison
import DroidKernal.Binder.KeyedEntries
import DroidKernal.Binder.Mapping
import DroidKernal.Binder.FreeBuffers
import DroidKernal.Utils.SortedLookup
import DroidKernal.Utils.WeakAssignment
import DroidKernal.Binder.LoggedEntries
import DroidKernal.Utils.CodePointRoundTrip
import DroidKernal.Utils.Utf8Length
import DroidKernal.Binder.CommandCounts
import DroidKernal.Binderfs.Directories
import DroidKernal.Binder.BuffersOwned
import DroidKernal.Binder.ThreadOwned
import DroidKernal.Binder.DescriptorsOwned
import DroidKernal.Utils.TerminatedStrings
import DroidKernal.Binder.ServiceName
import DroidKernal.Utils.LooperSlots
