import Mathlib.Data.List.Basic

/-!
# Layer stacks

A network protocol of ssf is a stack of layers over a physical one: `tcp` (ssf/layer/physical/tcp.h) at the bottom, and
`basic_ProxyProtocol` (ssf/layer/proxy/basic_proxy_protocol.h) and `basic_tls` (ssf/layer/cryptography/tls/OpenSSL/impl.h)
over a next layer. No layer adds overhead, so every stack keeps the MTU of TCP (`mtu_eq`), and each layer takes one entry
of the parameter stack, so `endpoint_stack_size` counts the layers.

`make_endpoint` of TCP reads the parameters at its iterator; that of a proxy reads them, then those of the layer below,
and builds the next layer's endpoint unless the proxy context found the remote host there. Neither dereferences its
iterator past the first `endpoint_stack_size` entries (`makeEndpoint_isSome`). `make_tcp_endpoint`, `MakeProxyContext`,
`acceptor_endpoint` and `UpdateRemoteHost` are not in the repository: the model takes them as `EndpointHelpers`. The TLS
layer's `make_endpoint` is not in the repository either, so endpoints are modelled for stacks of proxies over TCP.
-/

namespace SocketFunneling

/-- A protocol of the repository's layers, from the top. -/
inductive Layer where
  | tcp
  | proxy (next : Layer)
  | tls (next : Layer)
  deriving DecidableEq, Repr

namespace Layer

/-- The `id` of the top layer. -/
def id : Layer → Nat
  | tcp => 1
  | proxy _ => 6
  | tls _ => 2

/-- The `overhead` of the top layer. -/
def overhead : Layer → Nat
  | tcp | proxy _ | tls _ => 0

/-- `mtu`: `65535 - overhead` for TCP, and the next layer's less the overhead for the others. -/
def mtu : Layer → Nat
  | tcp => 65535 - tcp.overhead
  | proxy next => next.mtu - (proxy next).overhead
  | tls next => next.mtu - (tls next).overhead

/-- `endpoint_stack_size`: 1 for TCP, and one more than the next layer's for the others. -/
def endpointStackSize : Layer → Nat
  | tcp => 1
  | proxy next => 1 + next.endpointStackSize
  | tls next => 1 + next.endpointStackSize

/-- No layer adds overhead: every stack has the MTU of TCP. -/
theorem mtu_eq (l : Layer) : l.mtu = 65535 := by
  induction l <;> simp [mtu, overhead, *]

/-- `n` proxies over TCP. -/
def proxies : Nat → Layer
  | 0 => tcp
  | n + 1 => proxy (proxies n)

end Layer

/-- What `make_endpoint` of TCP and of a proxy call and the repository does not hold: `make_tcp_endpoint`,
`MakeProxyContext` (`none` when it sets `ec`), `acceptor_endpoint`, and `UpdateRemoteHost` (the context it leaves, and
whether the next layer's parameters gave the remote host). -/
structure EndpointHelpers (Param Tcp Ctx : Type) where
  makeTcpEndpoint : Param → Tcp
  makeProxyContext : Param → Option Ctx
  acceptorEndpoint : Ctx → Bool
  updateRemoteHost : Ctx → Param → Ctx × Bool

/-- An endpoint of a proxy over a layer whose endpoints are `E`: `endpoint()` after an error, `endpoint(context)`, or
`endpoint(context, next)`. -/
inductive ProxyEndpoint (Ctx E : Type) where
  | empty
  | remote (context : Ctx)
  | viaNext (context : Ctx) (next : E)

section Endpoints

variable {Param Tcp Ctx : Type} (H : EndpointHelpers Param Tcp Ctx)

/-- `tcp::make_endpoint` from the parameters at the iterator on; `none` where it dereferences the iterator at the end. -/
def tcpMakeEndpoint : List Param → Option Tcp
  | [] => none
  | p :: _ => some (H.makeTcpEndpoint p)

/-- `basic_ProxyProtocol::make_endpoint` over a next layer's `make_endpoint`, from the parameters at the iterator on;
`none` where it dereferences the iterator at the end. -/
def proxyMakeEndpoint {E : Type} (nextMakeEndpoint : List Param → Option E) :
    List Param → Option (ProxyEndpoint Ctx E)
  | [] => none
  | p :: rest =>
    match H.makeProxyContext p with
    | none => some .empty
    | some context =>
      match rest with
      | [] => none
      | q :: _ =>
        if H.acceptorEndpoint context then (nextMakeEndpoint rest).map (.viaNext context)
        else if (H.updateRemoteHost context q).2 then some (.remote (H.updateRemoteHost context q).1)
        else (nextMakeEndpoint rest).map (.viaNext (H.updateRemoteHost context q).1)

/-- The endpoints of `n` proxies over TCP. -/
def StackEndpoint (Tcp Ctx : Type) : Nat → Type
  | 0 => Tcp
  | n + 1 => ProxyEndpoint Ctx (StackEndpoint Tcp Ctx n)

/-- `make_endpoint` of `n` proxies over TCP. -/
def makeEndpoint : (n : Nat) → List Param → Option (StackEndpoint Tcp Ctx n)
  | 0 => tcpMakeEndpoint H
  | n + 1 => proxyMakeEndpoint H (makeEndpoint n)

/-- A `make_endpoint` that dereferences no iterator past the end of a stack of at least `n` parameters. -/
def ReadsWithin {E : Type} (f : List Param → Option E) (n : Nat) : Prop :=
  ∀ ps : List Param, n ≤ ps.length → (f ps).isSome

/-- TCP reads the one entry at its iterator. -/
theorem tcpMakeEndpoint_readsWithin : ReadsWithin (tcpMakeEndpoint H) Layer.tcp.endpointStackSize
  | _ :: _, _ => rfl

/-- A proxy reads one entry more than the layer below it, which reads one at least. -/
theorem proxyMakeEndpoint_readsWithin {E : Type} {f : List Param → Option E} {n : Nat} (hf : ReadsWithin f n)
    (hn : 1 ≤ n) : ReadsWithin (proxyMakeEndpoint H f) (1 + n)
  | [], hl => absurd hl (by simp)
  | p :: rest, hl => by
    simp only [List.length_cons] at hl
    obtain ⟨q, qs, rfl⟩ : ∃ q qs, rest = q :: qs := List.exists_cons_of_length_pos (by omega)
    have hnext : ∀ g : E → ProxyEndpoint Ctx E, ((f (q :: qs)).map g).isSome := fun g => by
      rw [Option.isSome_map']
      exact hf _ (by omega)
    simp only [proxyMakeEndpoint]
    split
    · rfl
    · split_ifs
      · exact hnext _
      · rfl
      · exact hnext _

/-- `make_endpoint` of `n` proxies over TCP dereferences no parameter past the first `endpoint_stack_size`: given that
many, it builds an endpoint. -/
theorem makeEndpoint_isSome (n : Nat) (ps : List Param) (hl : (Layer.proxies n).endpointStackSize ≤ ps.length) :
    (makeEndpoint H n ps).isSome := by
  suffices ∀ n, ReadsWithin (makeEndpoint H n) (Layer.proxies n).endpointStackSize from this n ps hl
  intro n
  induction n with
  | zero => exact tcpMakeEndpoint_readsWithin H
  | succ n ih =>
    have : 1 ≤ (Layer.proxies n).endpointStackSize := by cases n <;> simp [Layer.proxies, Layer.endpointStackSize]
    exact proxyMakeEndpoint_readsWithin H ih this

/-- A `make_endpoint` that reads no parameter past the first `n`: cut there, the stack gives the same endpoint. -/
def ReadsFirst {E : Type} (f : List Param → Option E) (n : Nat) : Prop :=
  ∀ ps : List Param, f ps = f (ps.take n)

/-- TCP reads the entry at its iterator and no other. -/
theorem tcpMakeEndpoint_readsFirst : ReadsFirst (tcpMakeEndpoint H) Layer.tcp.endpointStackSize
  | [] => rfl
  | _ :: _ => rfl

/-- A proxy reads its own entry and, past it, what the layer below reads, whose first entry gives the remote host. -/
theorem proxyMakeEndpoint_readsFirst {E : Type} {f : List Param → Option E} {n : Nat} (hf : ReadsFirst f n)
    (hn : 1 ≤ n) : ReadsFirst (proxyMakeEndpoint H f) (1 + n)
  | [] => by rw [List.take_nil]
  | [_] => by rw [Nat.add_comm 1, List.take_succ_cons, List.take_nil]
  | p :: q :: qs => by
    obtain ⟨j, rfl⟩ : ∃ j, n = j + 1 := ⟨n - 1, by omega⟩
    have ht : (p :: q :: qs).take (1 + (j + 1)) = p :: q :: qs.take j := by
      rw [Nat.add_comm 1, List.take_succ_cons, List.take_succ_cons]
    rw [ht]
    simp only [proxyMakeEndpoint]
    rw [hf (q :: qs), List.take_succ_cons]

/-- `make_endpoint` of `n` proxies over TCP reads no parameter past the first `endpoint_stack_size`: it builds the same
endpoint, or fails the same way, from the parameter stack cut there. -/
theorem makeEndpoint_take (n : Nat) (ps : List Param) :
    makeEndpoint H n ps = makeEndpoint H n (ps.take (Layer.proxies n).endpointStackSize) := by
  suffices ∀ n, ReadsFirst (makeEndpoint H n) (Layer.proxies n).endpointStackSize from this n ps
  intro n
  induction n with
  | zero => exact tcpMakeEndpoint_readsFirst H
  | succ n ih =>
    have : 1 ≤ (Layer.proxies n).endpointStackSize := by cases n <;> simp [Layer.proxies, Layer.endpointStackSize]
    exact proxyMakeEndpoint_readsFirst H ih this

end Endpoints

/-- Helpers with which every context is a client's that finds no remote host: each proxy builds the next layer's
endpoint. -/
def directHelpers : EndpointHelpers Nat Nat Nat where
  makeTcpEndpoint := id
  makeProxyContext := some
  acceptorEndpoint := fun _ => false
  updateRemoteHost := fun context _ => (context, false)

/-- `makeEndpoint_isSome` for two proxies over TCP and three parameters. -/
theorem makeEndpoint_isSome_twoProxies :
    (Layer.proxies 2).endpointStackSize ≤ [1, 2, 3].length ∧ (makeEndpoint directHelpers 2 [1, 2, 3]).isSome :=
  ⟨by decide, makeEndpoint_isSome directHelpers 2 [1, 2, 3] (by decide)⟩

end SocketFunneling
