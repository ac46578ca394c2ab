import Bourse.Config.Lookup
import Bourse.Depth.Registry
import Bourse.Proofs.Book.Abandoned
import Bourse.Proofs.Book.Ending
import Bourse.Proofs.Book.Sweep
import Bourse.Proofs.Book.TriggerPass
import Bourse.Proofs.Book.Untraded
import Bourse.Proofs.Depth.Calls
import Bourse.Proofs.Depth.Updates
import Bourse.Proofs.Engine.Bringup
import Bourse.Proofs.Engine.Independence
import Bourse.Proofs.Engine.Life
import Bourse.Proofs.Engine.Refusals
import Bourse.Proofs.Engine.Restart
import Bourse.Proofs.Floor.Ended
import Bourse.Proofs.Floor.Faultless
import Bourse.Proofs.Floor.Legal
import Bourse.Proofs.Floor.StopLoss
import Bourse.Proofs.Ledger.Display
import Bourse.Proofs.Queue.Counter
import Bourse.Proofs.Session.Crossed
import Bourse.Proofs.Session.Depth
import Bourse.Proofs.Session.Eager
import Bourse.Proofs.Session.LoadOrder
import Bourse.Proofs.Session.Prices
import Bourse.Proofs.Session.Priority
import Bourse.Proofs.Session.Shares
import Bourse.Proofs.Session.Uncrossed
import Bourse.Proofs.Settlement.Contract
import Bourse.Proofs.Settlement.Trades
import Bourse.Proofs.Wire.Records
import Bourse.Settlement.Scripted
