import ReactiveSpace.Document.Registry
import ReactiveSpace.Proofs.Keyed

/-!
# What a registry holds

A registry that is filled client by client is the map of these clients by service
(`entries_register`), so of two clients for one service the later one is kept, and clients of
distinct services are all there. `Holds` says this without the map: by what is found for a service,
and by the services, which are listed once each, sorted (`holds_register`).
-/

namespace ReactiveSpace.Registry

/-! ### Services -/

/-- The services are the names of the entries, in another order. -/
theorem perm_services (r : Registry) : r.services.Perm (Keyed.names r.entries) :=
  List.mergeSort_perm _ _

/-- The services are sorted. -/
theorem pairwise_services (r : Registry) : r.services.Pairwise (· ≤ ·) := by
  have htrans : ∀ a b c : String, decide (a ≤ b) = true → decide (b ≤ c) = true →
      decide (a ≤ c) = true := by
    intro a b c hab hbc
    exact decide_eq_true (String.le_trans (of_decide_eq_true hab) (of_decide_eq_true hbc))
  have htotal : ∀ a b : String, (decide (a ≤ b) || decide (b ≤ a)) = true := by
    intro a b
    rw [Bool.or_eq_true, decide_eq_true_iff, decide_eq_true_iff]
    exact String.le_total a b
  exact (List.pairwise_mergeSort htrans htotal (Keyed.names r.entries)).imp of_decide_eq_true

/-! ### Filling -/

/-- The entries of a registry that was filled are the clients by their services. -/
theorem entries_register (clients : List ServiceClient) :
    (clients.foldl register {}).entries =
      Keyed.ofPairs (clients.map fun c => (c.service, c)) := by
  induction clients using List.reverseRecOn with
  | nil => rfl
  | append_singleton clients c ih =>
    rw [List.foldl_append, List.foldl_cons, List.foldl_nil, register, ih, List.map_append,
      List.map_singleton, Keyed.ofPairs_concat]

/-- A registry holds what was registered, one client after the other: a service has the client that
was registered for it last, and the services that have one are listed once each, sorted. -/
structure Holds (r : Registry) (clients : List ServiceClient) : Prop where
  client : ∀ service, r.get? service = (clients.filter fun c => c.service = service).getLast?
  mem_services : ∀ service, service ∈ r.services ↔ ∃ c ∈ clients, c.service = service
  sorted : r.services.Pairwise (· ≤ ·)
  nodup : r.services.Nodup
  size : r.size = r.services.length

/-- A registry that is filled holds what it was filled with. -/
theorem holds_register (clients : List ServiceClient) :
    (clients.foldl register {}).Holds clients := by
  have hnames := perm_services (clients.foldl register {})
  refine ⟨fun service => ?_, fun service => ?_, pairwise_services _, ?_, ?_⟩
  · -- The client that comes last is the one that is found, if it is one of the service.
    induction clients using List.reverseRecOn with
    | nil => rfl
    | append_singleton clients c ih =>
      rw [List.foldl_append, List.foldl_cons, List.foldl_nil, get?_register, List.filter_append]
      by_cases hc : c.service = service
      · simp [hc]
      · simp [hc, ih (perm_services _)]
  · rw [hnames.mem_iff, entries_register, Keyed.mem_names_ofPairs, List.map_map]
    exact List.mem_map
  · rw [hnames.nodup_iff, entries_register]
    exact Keyed.nodup_names_ofPairs _
  · rw [hnames.length_eq, Keyed.names, List.length_map, size]

/-! ### One decryptor -/

/-- The entries of a registry are the clients by their services. -/
theorem entries_ofClients (decrypt : Decryptor) (clients : List Client) :
    (ofClients decrypt clients).entries =
      Keyed.ofPairs (clients.map fun c => (c.service, ⟨c, decrypt⟩)) := by
  have hfold : ofClients decrypt clients =
      (clients.map fun c => (⟨c, decrypt⟩ : ServiceClient)).foldl register {} := by
    rw [List.foldl_map, ofClients]
  rw [hfold, entries_register, List.map_map]
  rfl

/-- Clients of distinct services are all kept. -/
theorem entries_ofClients_of_nodup (decrypt : Decryptor) {clients : List Client}
    (hd : (clients.map Client.service).Nodup) :
    (ofClients decrypt clients).entries = clients.map fun c => (c.service, ⟨c, decrypt⟩) := by
  rw [entries_ofClients]
  refine Keyed.ofPairs_eq_self ?_
  rw [Keyed.names, List.map_map]
  exact hd

end ReactiveSpace.Registry
