import NorFlash.Bench.DeviceSession
import NorFlash.Bench.Names
import NorFlash.Bench.Registers
import NorFlash.Main
import NorFlash.Proofs.BankRecord
import NorFlash.Proofs.StackAccess
import NorFlash.Proofs.RegisterAccess
import NorFlash.Proofs.ScratchRead
import NorFlash.Proofs.FailedRead
import NorFlash.Proofs.Files
import NorFlash.Proofs.Requests
import NorFlash.Proofs.WriteRequest
import NorFlash.Proofs.EraseRequest
import NorFlash.Proofs.PoolAccess
import NorFlash.Proofs.ReadRequest
import NorFlash.Proofs.ScriptedDriver
import NorFlash.Proofs.Progress
import NorFlash.Proofs.FirstFailure
import NorFlash.Proofs.Listener
import NorFlash.Proofs.RegisterProtocol
import NorFlash.Proofs.Tiling
import NorFlash.Proofs.EntityStream
import NorFlash.Proofs.Contents
import NorFlash.Proofs.ListedImages
import NorFlash.Proofs.ScanRecord
import NorFlash.Proofs.PoolBookkeeping
import NorFlash.Proofs.StaleEntities
import NorFlash.Proofs.ByteCursor
import NorFlash.Proofs.WindowWrites
import NorFlash.Proofs.Conduct
import NorFlash.Proofs.Fulfilment
import NorFlash.Proofs.ParallelBanks
import NorFlash.Proofs.StackedBanks
import NorFlash.Proofs.StateRules
import NorFlash.Proofs.CommandProtocol
import NorFlash.Proofs.Lifecycle
import NorFlash.Proofs.InBounds
import NorFlash.Proofs.PartCalls
import NorFlash.Proofs.WriteLatch
import NorFlash.Proofs.TableOrder
import NorFlash.Proofs.DieRange
import NorFlash.Proofs.QuadEnable
import NorFlash.Proofs.GuardedRequests
import NorFlash.Proofs.Polling
import NorFlash.Proofs.UnitNesting
import NorFlash.Proofs.RegisterHistory
import NorFlash.Proofs.StackRuns
import NorFlash.Proofs.Readiness
