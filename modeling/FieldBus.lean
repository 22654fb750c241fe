import FieldBus.Client
import FieldBus.Link.Faulty
import FieldBus.Link.Line
import FieldBus.Link.Script
import FieldBus.Monitor
import FieldBus.ParameterStore
import FieldBus.Server
import FieldBus.Proofs.CheckByte
import FieldBus.Proofs.Held
import FieldBus.Proofs.Grammar
import FieldBus.Proofs.Resynchronization
import FieldBus.Proofs.Corruption
import FieldBus.Proofs.Serving
import FieldBus.Proofs.Loopback
import FieldBus.Proofs.Recovery
import FieldBus.Proofs.ExactlyOnce
import FieldBus.Proofs.Delivery
import FieldBus.Proofs.Multidrop
import FieldBus.Proofs.CutShort
import FieldBus.Proofs.Interruption
import FieldBus.Proofs.Chunks
import FieldBus.Proofs.RoundTrip
import FieldBus.Proofs.Placement
import FieldBus.Proofs.Skipping
import FieldBus.Proofs.Selectivity
import FieldBus.Proofs.Agreement
import FieldBus.Proofs.Transactions
import FieldBus.Proofs.Separation
import FieldBus.Proofs.History
import FieldBus.Proofs.Outstanding
import FieldBus.Proofs.Independence
import FieldBus.Proofs.Owed
import FieldBus.Proofs.Renewal
import FieldBus.Proofs.Blame
import FieldBus.Proofs.Calling
import FieldBus.Proofs.Contents
import FieldBus.Proofs.Progress
import FieldBus.Proofs.Carrying
import FieldBus.Proofs.Reading
import FieldBus.Proofs.FixedWidth
import FieldBus.Proofs.WireForm
import FieldBus.Proofs.Starting
import FieldBus.Proofs.Returning
import FieldBus.Proofs.Attribution
import FieldBus.Proofs.Detection
import FieldBus.Proofs.CheckRange
import FieldBus.Proofs.Canonical
import FieldBus.Proofs.Storing
import FieldBus.Proofs.Conservation
