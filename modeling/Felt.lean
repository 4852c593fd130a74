import Felt.Box.Termination
import Felt.Box.Peers
import Felt.Box.Raw
import Felt.Box.Strings
import Felt.Box.WellFormed
import Felt.Client.Construction
import Felt.Client.Writer
import Felt.Net.Framing
import Felt.Server.Tables
import Felt.Server.Survival
import Felt.Server.Guests
import Felt.Server.Equipment
import Felt.Server.Census
import Felt.Server.Tree
import Felt.Server.Capture
import Felt.Server.Stock
import Felt.Server.Pieces
import Felt.Server.History
import Felt.Server.Ids
import Felt.Server.Growth
import Felt.Server.Pruning
import Felt.Box.Integers
import Felt.Server.Inheritance
import Felt.Client.Display
import Felt.Client.Modules
import Felt.Client.Replication
import Felt.Client.Requests
import Felt.Client.Portrait
import Felt.Client.Scene
import Felt.Client.Patience
import Felt.Client.Wire
