import WriteLatch.Proofs.Interleaving.World

/-!
# The transactions of a request

A request that may be written is cut into pieces, and every piece becomes a
transaction under the context of the write.
-/

namespace WriteLatch

namespace Request

theorem of_firstWhere?_eq_none {α : Type} {p : α -> Bool} {xs : List α}
    (h : firstWhere? p xs = none) : ∀ x ∈ xs, p x = false := by
  intro x hmem
  rw [firstWhere?, List.find?_eq_none] at h
  rcases List.mem_iff_getElem?.mp hmem with ⟨i, hi⟩
  have hnot := h (x, i) (List.mem_zipIdx_iff_getElem?.mpr hi)
  simpa using hnot

/-- Every key of a request that may be written is valid. -/
theorem isValid_of_check {keys : List Key} {values : List Value}
    (h : check keys values = .ok ()) : ∀ k ∈ keys, k.isValid = true := by
  rw [check_eq_ok_iff, defect?] at h
  by_cases hlength : keys.length ≠ values.length
  · rw [if_pos hlength] at h
    cases h
  · rw [if_neg hlength, Option.or_eq_none_iff, invalidKey?, Option.map_eq_none_iff] at h
    intro k hmem
    have hk := of_firstWhere?_eq_none h.2 k hmem
    simpa using hk

theorem length_eq_of_check {keys : List Key} {values : List Value}
    (h : check keys values = .ok ()) : keys.length = values.length := by
  rw [check_eq_ok_iff, defect?] at h
  by_cases hlength : keys.length = values.length
  · exact hlength
  · rw [if_pos hlength] at h
    cases h

end Request

namespace Client

theorem mem_of_mem_piece {c : Client} {keys : List Key} {values : List Value} {piece : Piece}
    (hpiece : piece ∈ c.pieces keys values) {k : Key} (hk : k ∈ piece.keys) : k ∈ keys := by
  rw [pieces, List.mem_map] at hpiece
  rcases hpiece with ⟨span, _, heq⟩
  rw [← heq] at hk
  exact List.mem_of_mem_drop (List.mem_of_mem_take hk)

theorem mem_values_of_mem_piece {c : Client} {keys : List Key} {values : List Value}
    {piece : Piece} (hpiece : piece ∈ c.pieces keys values) {v : Value} (hv : v ∈ piece.values) :
    v ∈ values := by
  rw [pieces, List.mem_map] at hpiece
  rcases hpiece with ⟨span, _, heq⟩
  rw [← heq] at hv
  exact List.mem_of_mem_drop (List.mem_of_mem_take hv)

end Client

namespace Simulation

/-- The transaction that writes a piece. -/
def Writer.ofPiece (scheme : LockScheme) (ctx : Context) (piece : Client.Piece) : Writer :=
  ⟨scheme, { ctx := ctx, keys := piece.keys, values := piece.values }⟩

/-- The world in which a client has just dispatched a request. -/
def World.dispatched (client : Client) (scene : Scene) (ctx : Context) (keys : List Key)
    (values : List Value) : World :=
  { scene := scene
    writers := (client.pieces keys values).map
      (Writer.ofPiece client.config.lockScheme (client.bounded scene.now ctx)) }

namespace World

theorem fresh_dispatched (client : Client) (scene : Scene) (ctx : Context) (keys : List Key)
    (values : List Value) : (dispatched client scene ctx keys values).Fresh := by
  constructor
  · rfl
  · intro writer hmem
    rw [dispatched, List.mem_map] at hmem
    rcases hmem with ⟨piece, _, heq⟩
    rw [← heq]
    rfl

theorem scheme_of_dispatched {client : Client} {scene : Scene} {ctx : Context}
    {keys : List Key} {values : List Value} {writer : Writer}
    (h : writer ∈ (dispatched client scene ctx keys values).writers) :
    writer.scheme = client.config.lockScheme := by
  rw [dispatched, List.mem_map] at h
  rcases h with ⟨piece, _, heq⟩
  rw [← heq]
  rfl

theorem mem_of_dispatched {client : Client} {scene : Scene} {ctx : Context}
    {keys : List Key} {values : List Value} {writer : Writer}
    (h : writer ∈ (dispatched client scene ctx keys values).writers) {k : Key}
    (hk : k ∈ writer.run.keys) : k ∈ keys := by
  rw [dispatched, List.mem_map] at h
  rcases h with ⟨piece, hpiece, heq⟩
  rw [← heq] at hk
  exact Client.mem_of_mem_piece hpiece hk

/-- The transactions stay those of the pieces. -/
theorem Reaches.exists_piece {client : Client} {scene : Scene} {ctx : Context} {keys : List Key}
    {values : List Value} {w : World} (h : Reaches (dispatched client scene ctx keys values) w)
    {j : Nat} {writer : Writer} (hwriter : w.writers[j]? = some writer) :
    ∃ piece, (client.pieces keys values)[j]? = some piece ∧
      Continues writer (.ofPiece client.config.lockScheme (client.bounded scene.now ctx) piece) := by
  rcases h.continues hwriter with ⟨first, hfirst, hcontinues⟩
  rw [dispatched, List.getElem?_map, Option.map_eq_some_iff] at hfirst
  rcases hfirst with ⟨piece, hpiece, heq⟩
  rw [← heq] at hcontinues
  exact ⟨piece, hpiece, hcontinues⟩

/-- A request to a client with the default settings that writes one key per
call, under a root context. -/
def oneByOne (faults : Faults) (keys : List Key) (values : List Value) : World :=
  dispatched ⟨{}, 1⟩ (Scene.newRoot { faults := faults } "root").2
    (Scene.newRoot { faults := faults } "root").1 keys values

theorem fresh_oneByOne (faults : Faults) (keys : List Key) (values : List Value) :
    (oneByOne faults keys values).Fresh :=
  fresh_dispatched _ _ _ _ _

end World
end Simulation
end WriteLatch
