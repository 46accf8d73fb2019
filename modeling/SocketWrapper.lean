import SocketWrapper.Lib.FlatMemory
import SocketWrapper.Lib.Transition
import SocketWrapper.Lib.Segmenter
import SocketWrapper.Lib.Delimited
import SocketWrapper.Lib.Ownership
import SocketWrapper.Base.Theorems
import SocketWrapper.Transfer.Theorems
import SocketWrapper.Conditional.Theorems
import SocketWrapper.Writers.Theorems
import SocketWrapper.Accepting.Theorems
import SocketWrapper.Descriptors.Theorems
import SocketWrapper.Datagram.Theorems
import SocketWrapper.Waiting.Theorems
import SocketWrapper.Interfaces.Theorems
import SocketWrapper.Readers.Theorems
import SocketWrapper.Locks.Theorems
import SocketWrapper.Stopping.Theorems
import SocketWrapper.Concurrent.Lemmas.Alone
import SocketWrapper.Concurrent.Theorems
import SocketWrapper.Conditional.Lemmas.Cuts
import SocketWrapper.Concurrent.Lemmas.Cutting
import SocketWrapper.Layers.Theorems
import SocketWrapper.Connection.Theorems
import SocketWrapper.Sections.Theorems
import SocketWrapper.Endpoints.Theorems
