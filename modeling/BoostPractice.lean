import BoostPractice.MachineIntProofs
import BoostPractice.FrameDecodingProofs
import BoostPractice.BufferProofs
import BoostPractice.RpcCodecReadProofs
import BoostPractice.RpcMessageProofs
import BoostPractice.RpcCodecSendProofs
import BoostPractice.GuardedRunProofs
import BoostPractice.RpcCodecPoolProofs
import BoostPractice.RpcCodecWireProofs
import BoostPractice.RpcSessionProofs
import BoostPractice.RpcSessionStreamProofs
import BoostPractice.RemoteCallProofs
import BoostPractice.RpcSessionRunProofs
import BoostPractice.RpcSessionCallProofs
import BoostPractice.RpcSessionReplyProofs
import BoostPractice.RpcSessionIdProofs
import BoostPractice.RpcSessionEnvelopeProofs
import BoostPractice.RpcCodecProgressProofs
import BoostPractice.ChatReaderProofs
import BoostPractice.AsioRpcReaderProofs
import BoostPractice.SharedBufferSendProofs
import BoostPractice.AcceptorProofs
import BoostPractice.RpcSessionLifeProofs
import BoostPractice.RpcServerProofs
import BoostPractice.BoostAsyncProofs
import BoostPractice.ChatServerProofs
import BoostPractice.AsioRpcRequestProofs
import BoostPractice.AsioRpcResponseProofs
import BoostPractice.AsioRpcProgramProofs
import BoostPractice.MutexProofs
import BoostPractice.AsioRpcClientProofs
import BoostPractice.RunningSumsProofs
import BoostPractice.RpcCodecCorruptionProofs
import BoostPractice.LexicalPathProofs
import BoostPractice.HttpMessageProofs
import BoostPractice.HttpSessionProofs
import BoostPractice.HttpConnectionProofs
import BoostPractice.RpcDuplexProofs
import BoostPractice.RpcDuplexPlacesProofs
import BoostPractice.RpcDuplexProgressProofs
import BoostPractice.RpcDuplexBytesProofs
import BoostPractice.BufferDequeProofs
import BoostPractice.BufferQueueProofs
import BoostPractice.RpcMemoryProofs
import BoostPractice.ChatRoomProofs
import BoostPractice.ChatListenerProofs
import BoostPractice.TestServiceProofs
import BoostPractice.RpcCodecChannelProofs
import BoostPractice.RpcDuplexSocketsProofs
import BoostPractice.RpcClientProofs
import BoostPractice.HttpServerProofs
