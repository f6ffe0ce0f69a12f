import RelayDev.Lib.Loop
import RelayDev.Lib.Chase
import RelayDev.Lib.Cpp
import RelayDev.Lib.Text
import RelayDev.Data
import RelayDev.Lib.Runs
import RelayDev.Netlist
import RelayDev.Grouping
import RelayDev.RelayFilter
import RelayDev.FilterFaults
import RelayDev.OnePass
import RelayDev.DeviceOrder
import RelayDev.ChainTail
import RelayDev.DaisyChain
import RelayDev.RelayConvert
import RelayDev.Columns
import RelayDev.PullDown
import RelayDev.DriveStrength
import RelayDev.RelayName
import RelayDev.Selection
import RelayDev.Ports
import RelayDev.Address
import RelayDev.Bill
import RelayDev.BillFile
import RelayDev.BillRecords
import RelayDev.InputData
import RelayDev.Indeterminate
import RelayDev.EachRelay
import RelayDev.Lib.Transition
import RelayDev.Pool
import RelayDev.Output
import RelayDev.Saving
import RelayDev.Records
import RelayDev.SavedBill
import RelayDev.Server
import RelayDev.Answer
import RelayDev.Answering
import RelayDev.Capacity
import RelayDev.Progress
import RelayDev.PoolRuns
import RelayDev.Standalone
import RelayDev.StandaloneBill
import RelayDev.StandaloneChain
import RelayDev.StandaloneReader
import RelayDev.StandaloneRelay
import RelayDev.StandaloneAgreement
import RelayDev.StandaloneRecords
import RelayDev.StandaloneFile
import RelayDev.Convertible
import RelayDev.Serving
import RelayDev.Servable
import RelayDev.StandaloneRun
import RelayDev.Statements
import RelayDev.Interleaving
import RelayDev.InterleavedRuns
import RelayDev.InterleavedRows
import RelayDev.ConfigurationFile
