import CallAdapter.Host
import CallAdapter.Procedure.Induction
import CallAdapter.Workspace
import CallAdapter.Proofs.Grammar
import CallAdapter.Proofs.Decoding
import CallAdapter.Proofs.RowMaps
import CallAdapter.Proofs.Encoding
import CallAdapter.Proofs.Tasks
import CallAdapter.Proofs.Moves
import CallAdapter.Proofs.Outcome
import CallAdapter.Proofs.Running
import CallAdapter.Proofs.Slots
import CallAdapter.Proofs.Loading
import CallAdapter.Proofs.Constants
import CallAdapter.Proofs.Adapter
import CallAdapter.Proofs.PartialApplication
import CallAdapter.Proofs.Composition
import CallAdapter.Proofs.Adaptation
import CallAdapter.Proofs.Boundaries
import CallAdapter.Proofs.FirstUses
import CallAdapter.Proofs.Reencoding
import CallAdapter.Proofs.TokenTables
import CallAdapter.Proofs.EncoderPasses
import CallAdapter.Proofs.Agreement
import CallAdapter.Proofs.Shapes
import CallAdapter.Proofs.Executions
import CallAdapter.Proofs.Displacement
import CallAdapter.Proofs.ShortForms
import CallAdapter.Proofs.Histories
import CallAdapter.Proofs.Saturation
import CallAdapter.Proofs.Admission
import CallAdapter.Proofs.Conversion
import CallAdapter.Proofs.ConvertedValues
import CallAdapter.Proofs.IntegerConversion
import CallAdapter.Proofs.Accounting
import CallAdapter.Proofs.Visits
import CallAdapter.Proofs.DecodeOnce
import CallAdapter.Proofs.KeptCells
import CallAdapter.Proofs.TypeDefaults
import CallAdapter.Proofs.Forwarding
import CallAdapter.Proofs.Faults
import CallAdapter.Proofs.LocalSlots
import CallAdapter.Proofs.BindingFaults
import CallAdapter.Proofs.NamedValues
import CallAdapter.Proofs.AdaptationFaults
