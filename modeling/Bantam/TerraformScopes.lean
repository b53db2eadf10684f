import Bantam.HclTotality
import Mathlib.Data.List.Induction

/-! The nodes of Terraform blocks and the edges between them: when every block keeps a node of
its own, and when an edge stays within a directory. -/
namespace Bantam

/-! What is asked of the builder. -/

section
variable (readers : SourceReaders)

def addressOf (block : TerraformBlock) : String := terraformAddress readers.sha256 block

/-- The path of a file up to its last slash. -/
def directoryOf (file : String) : List Char :=
  (file.toList.reverse.dropWhile (· ≠ '/')).reverse

/-- The body of the block contains a reference of this text. -/
def Refers (block : TerraformBlock) (reference : String) : Prop :=
  reference ∈ (hclReference.findAll readers.word 0 none block.body.toList).map fun m =>
    String.ofList m.whole

def extracted (items : List TerraformItem) : List TerraformBlock :=
  items.filterMap fun item =>
    match item with
    | .parseError _ => none
    | .block block => some block

/-- Every block has its own node, and an edge joins two blocks just when the first refers to the
address of the second in its own directory. -/
structure NeitherLostNorCrossed (items : List TerraformItem) (state : TerraformState) : Prop where
  own : state.blocks.items.map Prod.snd = extracted items
  nodes : ∀ entry ∈ state.blocks.items, state.graph.nodes.get? entry.1 =
    some (blockNode entry.1 (addressOf readers entry.2) entry.2)
  joined : ∀ a ∈ state.blocks.items, ∀ b ∈ state.blocks.items, a.1 ≠ b.1 →
    (⟨a.1, b.1, "depends_on"⟩ ∈ (indexReferences readers state).edges.keys ↔
      Refers readers a.2 (addressOf readers b.2) ∧ directoryOf a.2.file = directoryOf b.2.file)

/-! The conditions. -/

/-- The identifier of a block by its type and address, and the one with its place. -/
def plainOf (block : TerraformBlock) : String := plainId (addressOf readers block) block
def placedOf (block : TerraformBlock) : String :=
  plainOf readers block ++ "@" ++ block.file ++ ":" ++ toString block.line

/-- Each block takes its plain identifier, and where that is in use the one with its place. -/
inductive InUse : List TerraformBlock → String → Prop
  | plain (earlier : List TerraformBlock) (block : TerraformBlock) (later : List TerraformBlock) :
      InUse (earlier ++ block :: later) (plainOf readers block)
  | placed {earlier : List TerraformBlock} {block : TerraformBlock} (later : List TerraformBlock)
      (h : InUse earlier (plainOf readers block)) :
      InUse (earlier ++ block :: later) (placedOf readers block)

/-- No block finds both its identifiers in use. -/
def DistinctPlaces (blocks : List TerraformBlock) : Prop :=
  ∀ earlier block later, blocks = earlier ++ block :: later →
    ¬(InUse readers earlier (plainOf readers block) ∧ InUse readers earlier (placedOf readers block))

/-- A reference is to the first block of its address exactly when the two blocks are in one
directory. -/
def ScopedReferences (blocks : List TerraformBlock) : Prop :=
  ∀ (i j : Nat) (a b : TerraformBlock), i ≠ j → blocks[i]? = some a → blocks[j]? = some b →
    Refers readers a (addressOf readers b) →
    ((∀ k < j, ∀ c, blocks[k]? = some c → addressOf readers c ≠ addressOf readers b) ↔
      directoryOf a.file = directoryOf b.file)

/-! The identifiers that the builder gives. -/

/-- The identifier of the next block. -/
def nextId (entries : List (String × TerraformBlock)) (block : TerraformBlock) : String :=
  if plainOf readers block ∈ entries.map Prod.fst then placedOf readers block
  else plainOf readers block

def identified (blocks : List TerraformBlock) : List (String × TerraformBlock) :=
  blocks.foldl (fun entries block => entries ++ [(nextId readers entries block, block)]) []

theorem identified_snoc (blocks : List TerraformBlock) (block : TerraformBlock) :
    identified readers (blocks ++ [block]) =
      identified readers blocks ++ [(nextId readers (identified readers blocks) block, block)] := by
  simp [identified, List.foldl_append]

theorem identified_blocks (blocks : List TerraformBlock) :
    (identified readers blocks).map Prod.snd = blocks := by
  induction blocks using List.reverseRecOn with
  | nil => rfl
  | append_singleton blocks block ih => rw [identified_snoc, List.map_append, ih]; rfl

variable {readers} {blocks : List TerraformBlock} {block : TerraformBlock} {id : String}

theorem InUse.mono (h : InUse readers blocks id) : InUse readers (blocks ++ [block]) id := by
  cases h with
  | plain earlier _ later =>
    rw [List.append_assoc, List.cons_append]
    exact .plain earlier _ (later ++ [block])
  | placed later h =>
    rw [List.append_assoc, List.cons_append]
    exact .placed (later ++ [block]) h

/-- What is in use after one more block. -/
theorem inUse_snoc : InUse readers (blocks ++ [block]) id ↔
    InUse readers blocks id ∨ id = plainOf readers block ∨
      (InUse readers blocks (plainOf readers block) ∧ id = placedOf readers block) := by
  constructor
  · intro h
    generalize hall : blocks ++ [block] = all at h
    cases h with
    | plain earlier own later =>
      cases later using List.reverseRecOn with
      | nil =>
        obtain ⟨-, hlast⟩ := List.append_inj' hall rfl
        cases hlast
        exact .inr (.inl rfl)
      | append_singleton later last =>
        rw [← List.cons_append, ← List.append_assoc] at hall
        obtain ⟨hblocks, -⟩ := List.append_inj' hall rfl
        exact .inl (hblocks ▸ .plain earlier own later)
    | @placed earlier own later h =>
      cases later using List.reverseRecOn with
      | nil =>
        obtain ⟨hblocks, hlast⟩ := List.append_inj' hall rfl
        cases hlast
        exact .inr (.inr ⟨hblocks ▸ h, rfl⟩)
      | append_singleton later last =>
        rw [← List.cons_append, ← List.append_assoc] at hall
        obtain ⟨hblocks, -⟩ := List.append_inj' hall rfl
        exact .inl (hblocks ▸ .placed later h)
  · rintro (h | rfl | ⟨h, rfl⟩)
    · exact h.mono
    · exact .plain blocks block []
    · exact .placed [] h

theorem not_inUse_nil : ¬InUse readers [] id := by
  intro h
  generalize hnil : ([] : List TerraformBlock) = all at h
  cases h with
  | plain earlier _ _ => exact absurd hnil (by simp)
  | placed _ _ => exact absurd hnil (by simp)

theorem mem_identified : id ∈ (identified readers blocks).map Prod.fst ↔ InUse readers blocks id := by
  induction blocks using List.reverseRecOn generalizing id with
  | nil => exact iff_of_false List.not_mem_nil not_inUse_nil
  | append_singleton blocks block ih =>
    rw [identified_snoc, List.map_append, List.mem_append, inUse_snoc, ih, List.map_singleton,
      List.mem_singleton]
    show _ ∨ id = nextId readers (identified readers blocks) block ↔ _
    by_cases huse : InUse readers blocks (plainOf readers block)
    · have hnext : nextId readers (identified readers blocks) block = placedOf readers block :=
        if_pos (ih.mpr huse)
      rw [hnext]
      constructor
      · exact fun h => h.imp_right fun hid => .inr ⟨huse, hid⟩
      · rintro (h | rfl | ⟨-, rfl⟩)
        · exact .inl h
        · exact .inl huse
        · exact .inr rfl
    · have hnext : nextId readers (identified readers blocks) block = plainOf readers block :=
        if_neg fun h => huse (ih.mp h)
      rw [hnext]
      constructor
      · exact fun h => h.imp_right .inl
      · rintro (h | rfl | ⟨h, -⟩)
        · exact .inl h
        · exact .inr rfl
        · exact absurd h huse

theorem distinctPlaces_snoc : DistinctPlaces readers (blocks ++ [block]) ↔
    DistinctPlaces readers blocks ∧
      ¬(InUse readers blocks (plainOf readers block) ∧
        InUse readers blocks (placedOf readers block)) := by
  constructor
  · intro h
    refine ⟨fun earlier own later hall => h earlier own (later ++ [block]) ?_,
      h blocks block [] rfl⟩
    rw [hall, List.append_assoc, List.cons_append]
  · rintro ⟨h, hlast⟩ earlier own later hall
    cases later using List.reverseRecOn with
    | nil =>
      obtain ⟨hblocks, hown⟩ := List.append_inj' hall rfl
      cases hown
      exact hblocks ▸ hlast
    | append_singleton later last =>
      rw [← List.cons_append, ← List.append_assoc] at hall
      exact h earlier own later (List.append_inj' hall rfl).1

/-- The identifiers are distinct exactly when no block finds both of its own in use. -/
theorem identified_nodup :
    ((identified readers blocks).map Prod.fst).Nodup ↔ DistinctPlaces readers blocks := by
  induction blocks using List.reverseRecOn with
  | nil => exact iff_of_true List.nodup_nil fun _ _ _ h => absurd h (by simp)
  | append_singleton blocks block ih =>
    have hnew : nextId readers (identified readers blocks) block ∉
        (identified readers blocks).map Prod.fst ↔
        ¬(InUse readers blocks (plainOf readers block) ∧
          InUse readers blocks (placedOf readers block)) := by
      by_cases huse : InUse readers blocks (plainOf readers block)
      · have hnext : nextId readers (identified readers blocks) block = placedOf readers block :=
          if_pos (mem_identified.mpr huse)
        rw [hnext, mem_identified]
        exact not_congr (and_iff_right huse).symm
      · have hnext : nextId readers (identified readers blocks) block = plainOf readers block :=
          if_neg fun h => huse (mem_identified.mp h)
        rw [hnext, mem_identified]
        exact iff_of_true huse fun h => huse h.1
    rw [identified_snoc, List.map_append, List.map_singleton, distinctPlaces_snoc, ← ih, ← hnew,
      List.nodup_append]
    constructor
    · rintro ⟨hnodup, -, hapart⟩
      exact ⟨hnodup, fun h => hapart _ h _ List.mem_cons_self rfl⟩
    · rintro ⟨hnodup, hfresh⟩
      refine ⟨hnodup, List.nodup_singleton _, fun a ha b hb => ?_⟩
      intro hsame
      obtain rfl : a = nextId readers (identified readers blocks) block :=
        hsame.trans (List.mem_singleton.mp hb)
      exact hfresh ha

/-! What the builder has after some blocks. -/

/-- The first letter sets the identifiers of blocks apart from those of checks and errors. -/
def BlockId (id : String) : Prop := id.toList.head? = some 't'

theorem BlockId.append {s : String} (h : BlockId s) (t : String) : BlockId (s ++ t) := by
  unfold BlockId at *
  rw [String.toList_append, List.head?_append, h]
  rfl

theorem plainOf_blockId (readers : SourceReaders) (block : TerraformBlock) :
    BlockId (plainOf readers block) := by
  have hfirst : BlockId "terraform:" := rfl
  exact ((hfirst.append _).append _).append _

theorem InUse.blockId (h : InUse readers blocks id) : BlockId id := by
  induction h with
  | plain _ block _ => exact plainOf_blockId readers block
  | placed _ _ _ => exact (((plainOf_blockId readers _).append _).append _).append _ |>.append _

theorem identified_blockId {entry : String × TerraformBlock} (h : entry ∈ identified readers blocks) :
    BlockId entry.1 := (mem_identified.mp (List.mem_map_of_mem h)).blockId

variable (readers) in
/-- The state after these blocks, but for what no block has to do with. -/
structure Indexed (state : TerraformState) (blocks : List TerraformBlock) : Prop where
  entries : state.blocks = Dict.ofList (identified readers blocks)
  nodes : ∀ id, BlockId id → state.graph.nodes.get? id =
    ((Dict.ofList (identified readers blocks)).get? id).map fun block =>
      blockNode id (addressOf readers block) block
  addresses : ∀ reference, state.addressToId.get? reference =
    ((identified readers blocks).find? fun entry =>
      decide (addressOf readers entry.2 = reference)).map Prod.fst
  edges : ∀ edge ∈ state.graph.edges.keys, edge.type ≠ "depends_on"

theorem ofList_snoc {κ ν : Type} [DecidableEq κ] (l : List (κ × ν)) (item : κ × ν) :
    Dict.ofList (l ++ [item]) = (Dict.ofList l).set item.1 item.2 := by
  simp [Dict.ofList, List.foldl_append]

theorem addCheck_node {nodeId : String} {graph : CodeGraph} {check : CodeNode}
    (hcheck : ¬BlockId check.id) (hid : BlockId id) :
    (graph.addCheck nodeId check).nodes.get? id = graph.nodes.get? id := by
  show (graph.nodes.set check.id check).get? id = _
  rw [Dict.get?_set, if_neg fun hsame : id = check.id => hcheck (hsame ▸ hid)]

theorem mem_variableChecks {word : Char → Bool} {nodeId address : String} {occurrence : Nat}
    {matches_ : List Pattern.Match} {check : CodeNode}
    (h : check ∈ variableChecks word nodeId address block occurrence matches_) :
    check.kind = "check" ∧ ∃ rest, check.id = "check:" ++ rest := by
  induction matches_ generalizing occurrence with
  | nil => exact absurd h List.not_mem_nil
  | cons validation rest ih =>
    rw [variableChecks] at h
    split_ifs at h
    · cases List.mem_cons.mp h with
      | inl hfirst =>
        subst hfirst
        exact ⟨rfl, nodeId ++ ":" ++ toString occurrence, by simp only [String.append_assoc]⟩
      | inr hlater => exact ih hlater
    · exact ih h

/-- An identifier that begins with another letter is not that of a block. -/
theorem not_blockId {label : String} (rest : String) (hlabel : label ≠ "")
    (hfirst : label.toList.head? ≠ some 't') : ¬BlockId (label ++ rest) := by
  unfold BlockId
  rw [String.toList_append, List.head?_append_of_ne_nil]
  · exact hfirst
  · exact fun h => hlabel (String.toList_eq_nil_iff.mp h)

/-- Checks leave the nodes of blocks alone and add edges of their own type. -/
theorem addChecks (nodeId : String) {checks : List CodeNode} (graph : CodeGraph)
    (hchecks : ∀ check ∈ checks, ¬BlockId check.id)
    (hedges : ∀ edge ∈ graph.edges.keys, edge.type ≠ "depends_on") :
    (∀ id, BlockId id → (checks.foldl (CodeGraph.addCheck nodeId) graph).nodes.get? id =
      graph.nodes.get? id) ∧
    ∀ edge ∈ (checks.foldl (CodeGraph.addCheck nodeId) graph).edges.keys,
      edge.type ≠ "depends_on" := by
  induction checks generalizing graph with
  | nil => exact ⟨fun _ _ => rfl, hedges⟩
  | cons check checks ih =>
    obtain ⟨hcheck, hrest⟩ := List.forall_mem_cons.mp hchecks
    have hadded : ∀ edge ∈ (graph.addCheck nodeId check).edges.keys, edge.type ≠ "depends_on" := by
      intro edge hedge
      cases Dict.mem_keys_set.mp hedge with
      | inl hold => exact hedges edge hold
      | inr hnew =>
        subst hnew
        show ("checks" : String) ≠ "depends_on"
        decide
    obtain ⟨hnodes, htypes⟩ := ih _ hrest hadded
    exact ⟨fun id hid => (hnodes id hid).trans (addCheck_node hcheck hid), htypes⟩

theorem Indexed.blockId_eq {state : TerraformState} (h : Indexed readers state blocks)
    (block : TerraformBlock) :
    blockId state.graph (addressOf readers block) block =
      nextId readers (identified readers blocks) block := by
  have hmem : plainId (addressOf readers block) block ∈ state.graph.nodes.keys ↔
      plainOf readers block ∈ (identified readers blocks).map Prod.fst := by
    rw [Dict.mem_keys_iff, ← Dict.mem_keys_ofList, Dict.mem_keys_iff]
    have hget := h.nodes _ (plainOf_blockId readers block)
    show (∃ v, state.graph.nodes.get? (plainOf readers block) = some v) ↔ _
    rw [hget]
    simp only [Option.map_eq_some_iff]
    constructor
    · intro hnode
      obtain ⟨_, own, hown, _⟩ := hnode
      exact ⟨own, hown⟩
    · intro howned
      obtain ⟨own, hown⟩ := howned
      exact ⟨_, own, hown, rfl⟩
  unfold blockId nextId
  by_cases huse : plainOf readers block ∈ (identified readers blocks).map Prod.fst
  · rw [if_pos (hmem.mpr huse), if_pos huse]
    rfl
  · rw [if_neg fun hin => huse (hmem.mp hin), if_neg huse]
    rfl

/-- The checks that a block brings. -/
def ownChecks (readers : SourceReaders) (nodeId : String) (block : TerraformBlock) :
    List CodeNode :=
  if block.blockType = "variable" then
    variableChecks readers.word nodeId (addressOf readers block) block 1
      (hclValidation.findAll readers.word 0 none block.body.toList)
  else []

theorem ownChecks_ids {nodeId : String} {check : CodeNode}
    (h : check ∈ ownChecks readers nodeId block) : ¬BlockId check.id := by
  unfold ownChecks at h
  split_ifs at h
  · obtain ⟨-, rest, hid⟩ := mem_variableChecks h
    rw [hid]
    exact not_blockId rest (by decide) (by decide)
  · exact absurd h List.not_mem_nil

theorem Indexed.addBlock {state : TerraformState} (h : Indexed readers state blocks)
    (block : TerraformBlock) : Indexed readers (state.addBlock readers block) (blocks ++ [block]) := by
  have hid := h.blockId_eq block
  have hstate : state.addBlock readers block =
      { graph := (ownChecks readers (nextId readers (identified readers blocks) block) block).foldl
          (CodeGraph.addCheck (nextId readers (identified readers blocks) block))
          (state.graph.addNode (blockNode (nextId readers (identified readers blocks) block)
            (addressOf readers block) block))
        blocks := state.blocks.set (nextId readers (identified readers blocks) block) block
        addressToId := if (state.addressToId.get? (addressOf readers block)).isSome then
            state.addressToId
          else state.addressToId.set (addressOf readers block)
            (nextId readers (identified readers blocks) block) } := by
    rw [← hid]
    rfl
  obtain ⟨hnodes, hedges⟩ := addChecks (nextId readers (identified readers blocks) block)
    (state.graph.addNode (blockNode (nextId readers (identified readers blocks) block)
      (addressOf readers block) block))
    (fun check hcheck => ownChecks_ids hcheck) h.edges
  rw [hstate]
  refine ⟨?_, fun id hblockId => ?_, fun reference => ?_, hedges⟩
  · rw [identified_snoc, ofList_snoc, h.entries]
  · rw [hnodes id hblockId, identified_snoc, ofList_snoc]
    show (state.graph.nodes.set _ _).get? id = _
    rw [Dict.get?_set, Dict.get?_set, h.nodes id hblockId]
    by_cases hsame : id = nextId readers (identified readers blocks) block
    · subst hsame
      rw [if_pos rfl]
      simp only [blockNode, if_true]
      rfl
    · rw [if_neg hsame]
      exact if_neg hsame
  · rw [identified_snoc, List.find?_append, Option.map_or, ← h.addresses]
    dsimp only
    cases hfound : state.addressToId.get? (addressOf readers block) with
    | none =>
      rw [if_neg (by simp), Dict.get?_set]
      by_cases hsame : reference = addressOf readers block
      · subst hsame
        rw [if_pos rfl, hfound]
        simp
      · rw [if_neg hsame]
        simp [Ne.symm hsame]
    | some other =>
      rw [if_pos (by simp)]
      by_cases hsame : reference = addressOf readers block
      · subst hsame
        rw [hfound]
        rfl
      · simp [Ne.symm hsame]

theorem Indexed.addError {state : TerraformState} (h : Indexed readers state blocks)
    {node : CodeNode} (hnode : ¬BlockId node.id) :
    Indexed readers { state with graph := state.graph.addNode node } blocks where
  entries := h.entries
  nodes := by
    intro id hid
    show (state.graph.nodes.set node.id node).get? id = _
    rw [Dict.get?_set, if_neg fun hsame : id = node.id => hnode (hsame ▸ hid)]
    exact h.nodes id hid
  addresses := h.addresses
  edges := h.edges

theorem indexed_items {items : List TerraformItem}
    (herrors : ∀ node, .parseError node ∈ items → ¬BlockId node.id) :
    Indexed readers (indexBlocks readers items) (extracted items) := by
  induction items using List.reverseRecOn with
  | nil => exact ⟨rfl, fun _ _ => rfl, fun _ => rfl, fun _ h => absurd h List.not_mem_nil⟩
  | append_singleton items item ih =>
    have hbefore := ih fun node hnode => herrors node (List.mem_append_left _ hnode)
    unfold indexBlocks extracted at *
    rw [List.foldl_append, List.filterMap_append]
    cases item with
    | parseError node =>
      have hnode := herrors node (List.mem_append_right _ List.mem_cons_self)
      rw [show List.filterMap _ [TerraformItem.parseError node] = [] from rfl, List.append_nil]
      exact hbefore.addError hnode
    | block block => exact hbefore.addBlock block

theorem terraformError_id (file : TreeFile) (line : Nat) : ¬BlockId (terraformError file line).id := by
  show ("parse-error:terraform:" ++ posixPath file.1 ++ ":" ++ toString line).toList.head? ≠ some 't'
  rw [String.toList_append, String.toList_append, String.toList_append]
  exact fun hhead => by cases hhead

theorem textItems_errors {file : TreeFile} {items : List TerraformItem}
    (h : textItems readers file = .ok items) {node : CodeNode} (hnode : .parseError node ∈ items) :
    node = terraformError file 1 := by
  unfold textItems at h
  split at h
  · cases h
  · obtain rfl := Except.ok.inj h
    split_ifs at hnode
    · cases List.mem_singleton.mp hnode
      rfl
    · obtain ⟨_, _, hne⟩ := List.mem_map.mp hnode
      cases hne

theorem jsonItems_errors {file : TreeFile} {node : CodeNode}
    (hnode : .parseError node ∈ jsonItems readers file) :
    ∃ line, node = terraformError file line := by
  unfold jsonItems at hnode
  split at hnode
  · next line _ =>
    cases List.mem_singleton.mp hnode
    exact ⟨line, rfl⟩
  · obtain ⟨_, _, hne⟩ := List.mem_map.mp hnode
    cases hne

/-- What is read off a tree is read off one of its files. -/
theorem mem_terraformItems {tree : List TreeFile} {items : List TerraformItem}
    (h : terraformItems readers tree = .ok items) {item : TerraformItem} (hitem : item ∈ items) :
    (∃ file own, textItems readers file = .ok own ∧ item ∈ own) ∨
      ∃ file, item ∈ jsonItems readers file := by
  unfold terraformItems at h
  cases htexts : (unexcluded ".tf" tree).mapM (textItems readers) with
  | error failure => rw [htexts] at h; cases h
  | ok texts =>
    rw [htexts] at h
    obtain rfl := Except.ok.inj h
    cases List.mem_append.mp hitem with
    | inl htext =>
      obtain ⟨own, hown, hmem⟩ := List.mem_flatten.mp htext
      obtain ⟨file, -, hread⟩ := Fallible.mem_mapM_ok htexts hown
      exact .inl ⟨file, own, hread, hmem⟩
    | inr hjson =>
      obtain ⟨file, -, hmem⟩ := List.mem_flatMap.mp hjson
      exact .inr ⟨file, hmem⟩

theorem terraformItems_errors {tree : List TreeFile} {items : List TerraformItem}
    (h : terraformItems readers tree = .ok items) {node : CodeNode}
    (hnode : .parseError node ∈ items) : ∃ file line, node = terraformError file line := by
  rcases mem_terraformItems h hnode with ⟨file, own, hread, hmem⟩ | ⟨file, hmem⟩
  · exact ⟨file, 1, textItems_errors hread hmem⟩
  · exact ⟨file, jsonItems_errors hmem⟩

/-! The edges between blocks. -/

theorem mem_addEdge {graph : CodeGraph} {edge edge' : GraphEdge} {flowId : Option String} :
    edge' ∈ (graph.addEdge edge flowId).edges.keys ↔ edge' ∈ graph.edges.keys ∨ edge' = edge :=
  Dict.mem_keys_set

theorem mem_foldl_edges {α : Type} {l : List α} {step : CodeGraph → α → CodeGraph}
    (made : α → GraphEdge → Prop)
    (hstep : ∀ graph a edge, edge ∈ (step graph a).edges.keys ↔ edge ∈ graph.edges.keys ∨ made a edge)
    {graph : CodeGraph} {edge : GraphEdge} :
    edge ∈ (l.foldl step graph).edges.keys ↔
      edge ∈ graph.edges.keys ∨ ∃ a ∈ l, made a edge := by
  induction l generalizing graph with
  | nil => simp
  | cons a l ih => rw [List.foldl_cons, ih, hstep, List.exists_mem_cons_iff, or_assoc]

theorem mem_indexReferences {state : TerraformState} {edge : GraphEdge} :
    edge ∈ (indexReferences readers state).edges.keys ↔ edge ∈ state.graph.edges.keys ∨
      ∃ entry ∈ state.blocks.items, ∃ target ∈ references readers state entry.2,
        target ≠ entry.1 ∧ edge = ⟨entry.1, target, "depends_on"⟩ := by
  have hstep : ∀ (graph : CodeGraph) (entry : String × TerraformBlock) (edge : GraphEdge),
      edge ∈ (((references readers state entry.2).filter (· ≠ entry.1)).foldl
        (fun graph target => graph.addEdge ⟨entry.1, target, "depends_on"⟩ none)
        graph).edges.keys ↔ edge ∈ graph.edges.keys ∨
          ∃ target ∈ references readers state entry.2,
            target ≠ entry.1 ∧ edge = ⟨entry.1, target, "depends_on"⟩ := by
    intro graph entry edge
    have hone : ∀ (graph : CodeGraph) (target : String) (edge : GraphEdge),
        edge ∈ (graph.addEdge ⟨entry.1, target, "depends_on"⟩ none).edges.keys ↔
          edge ∈ graph.edges.keys ∨ edge = ⟨entry.1, target, "depends_on"⟩ :=
      fun _ _ _ => mem_addEdge
    rw [mem_foldl_edges _ hone]
    simp only [List.mem_filter, decide_eq_true_eq, and_assoc]
  exact mem_foldl_edges _ hstep

theorem mem_references {state : TerraformState} {target : String} :
    target ∈ references readers state block ↔
      ∃ reference, Refers readers block reference ∧
        state.addressToId.get? reference = some target := by
  unfold references Refers
  dsimp only
  rw [List.mem_filterMap]
  refine exists_congr fun reference => and_congr_left fun _ => ?_
  rw [Text.sorted, (List.mergeSort_perm _ _).mem_iff, List.mem_dedup]

/-- The identifier that an address is entered with is that of its first block. -/
theorem address_entry {entries : List (String × TerraformBlock)}
    (hnodup : (entries.map Prod.fst).Nodup) {j : Nat} {b : String × TerraformBlock}
    (hb : entries[j]? = some b) (reference : String) :
    ((entries.find? fun entry => decide (addressOf readers entry.2 = reference)).map Prod.fst =
        some b.1) ↔
      addressOf readers b.2 = reference ∧
        ∀ k < j, ∀ c, entries[k]? = some c → addressOf readers c.2 ≠ reference := by
  have hmem := List.mem_of_getElem? hb
  rw [Option.map_eq_some_iff]
  constructor
  · rintro ⟨found, hfind, hid⟩
    obtain rfl : found = b :=
      List.inj_on_of_nodup_map hnodup (List.mem_of_find?_eq_some hfind) hmem hid
    obtain ⟨haddress, i, hi, hget, hbefore⟩ := List.find?_eq_some_iff_getElem.mp hfind
    rw [decide_eq_true_eq] at haddress
    refine ⟨haddress, fun k hk c hc => ?_⟩
    obtain ⟨hj, hgetj⟩ := List.getElem?_eq_some_iff.mp hb
    have hij : i = j := (hnodup.of_map Prod.fst).getElem_inj_iff.mp (hget.trans hgetj.symm)
    obtain ⟨hlt, hgetk⟩ := List.getElem?_eq_some_iff.mp hc
    have := hbefore k (by omega)
    rw [hgetk] at this
    simpa using this
  · rintro ⟨haddress, hbefore⟩
    obtain ⟨hlt, hget⟩ := List.getElem?_eq_some_iff.mp hb
    refine ⟨b, List.find?_eq_some_iff_getElem.mpr ⟨by simpa using haddress, j, hlt, hget, ?_⟩, rfl⟩
    intro k hk
    have := hbefore k hk entries[k] (List.getElem?_eq_getElem _)
    simpa using this

/-- What a block stands at is also what its entry stands at. -/
theorem identified_getElem? {i : Nat} : blocks[i]? = some block ↔
    ∃ entry, (identified readers blocks)[i]? = some entry ∧ entry.2 = block := by
  have hblocks : blocks[i]? = ((identified readers blocks).map Prod.snd)[i]? := by
    rw [identified_blocks]
  rw [hblocks, List.getElem?_map, Option.map_eq_some_iff]

theorem Indexed.joined_iff {state : TerraformState} (h : Indexed readers state blocks)
    (hnodup : ((identified readers blocks).map Prod.fst).Nodup) {a b : String × TerraformBlock}
    (ha : a ∈ identified readers blocks) {j : Nat} (hb : (identified readers blocks)[j]? = some b)
    (hne : a.1 ≠ b.1) :
    ⟨a.1, b.1, "depends_on"⟩ ∈ (indexReferences readers state).edges.keys ↔
      Refers readers a.2 (addressOf readers b.2) ∧
        ∀ k < j, ∀ c, blocks[k]? = some c → addressOf readers c ≠ addressOf readers b.2 := by
  have hitems : state.blocks.items = identified readers blocks := by
    rw [h.entries, Dict.items_ofList hnodup]
  have hfirst : (∀ k < j, ∀ c, blocks[k]? = some c → addressOf readers c ≠ addressOf readers b.2) ↔
      ∀ k < j, ∀ c, (identified readers blocks)[k]? = some c →
        addressOf readers c.2 ≠ addressOf readers b.2 := by
    refine forall_congr' fun k => imp_congr_right fun _ => ?_
    constructor
    · exact fun hblocks c hc => hblocks c.2 (identified_getElem?.mpr ⟨c, hc, rfl⟩)
    · intro hentries c hc
      obtain ⟨entry, hentry, rfl⟩ := identified_getElem?.mp hc
      exact hentries entry hentry
  rw [mem_indexReferences, hfirst, hitems]
  constructor
  · rintro (hold | ⟨entry, hentry, target, htarget, -, hedge⟩)
    · exact absurd rfl (h.edges _ hold)
    · simp only [GraphEdge.mk.injEq] at hedge
      obtain ⟨hsource, rfl, -⟩ := hedge
      obtain rfl : entry = a := List.inj_on_of_nodup_map hnodup hentry ha hsource.symm
      obtain ⟨reference, hrefers, hget⟩ := mem_references.mp htarget
      rw [h.addresses, address_entry hnodup hb] at hget
      obtain ⟨rfl, hbefore⟩ := hget
      exact ⟨hrefers, hbefore⟩
  · rintro ⟨hrefers, hbefore⟩
    refine .inr ⟨a, ha, b.1, mem_references.mpr ⟨_, hrefers, ?_⟩, hne.symm, rfl⟩
    rw [h.addresses, address_entry hnodup hb]
    exact ⟨rfl, hbefore⟩

theorem Indexed.own_iff {state : TerraformState} (h : Indexed readers state blocks) :
    state.blocks.items.map Prod.snd = blocks ↔ DistinctPlaces readers blocks := by
  rw [← identified_nodup, h.entries]
  constructor
  · intro hown
    rw [← Dict.length_ofList]
    have hlength := congrArg List.length hown
    have hidentified := congrArg List.length (identified_blocks readers blocks)
    rw [List.length_map] at hlength hidentified
    exact hlength.trans hidentified.symm
  · intro hnodup
    rw [Dict.items_ofList hnodup, identified_blocks]

/-- Once the blocks are indexed, all is kept exactly under the two conditions. -/
theorem Indexed.kept_iff {items : List TerraformItem}
    (h : Indexed readers (indexBlocks readers items) (extracted items)) :
    NeitherLostNorCrossed readers items (indexBlocks readers items) ↔
      DistinctPlaces readers (extracted items) ∧ ScopedReferences readers (extracted items) := by
  constructor
  · intro hkept
    have hplaces := h.own_iff.mp hkept.own
    have hnodup := identified_nodup.mpr hplaces
    have hentries : (indexBlocks readers items).blocks.items = identified readers (extracted items) := by
      rw [h.entries, Dict.items_ofList hnodup]
    refine ⟨hplaces, fun i j a b hij ha hb hrefers => ?_⟩
    obtain ⟨a, ha, rfl⟩ := identified_getElem?.mp ha
    obtain ⟨b, hb, rfl⟩ := identified_getElem?.mp hb
    have hmema := List.mem_of_getElem? ha
    have hmemb := List.mem_of_getElem? hb
    have hne : a.1 ≠ b.1 := by
      intro hsame
      obtain rfl : a = b := List.inj_on_of_nodup_map hnodup hmema hmemb hsame
      obtain ⟨hi, hgeti⟩ := List.getElem?_eq_some_iff.mp ha
      obtain ⟨hj, hgetj⟩ := List.getElem?_eq_some_iff.mp hb
      exact hij ((hnodup.of_map Prod.fst).getElem_inj_iff.mp (hgeti.trans hgetj.symm))
    have hjoined := hkept.joined a (hentries ▸ hmema) b (hentries ▸ hmemb) hne
    rw [h.joined_iff hnodup hmema hb hne] at hjoined
    exact ⟨fun hfirst => (hjoined.mp ⟨hrefers, hfirst⟩).2,
      fun hdirectory => (hjoined.mpr ⟨hrefers, hdirectory⟩).2⟩
  · rintro ⟨hplaces, hscoped⟩
    have hnodup := identified_nodup.mpr hplaces
    have hentries : (indexBlocks readers items).blocks.items = identified readers (extracted items) := by
      rw [h.entries, Dict.items_ofList hnodup]
    refine ⟨h.own_iff.mpr hplaces, fun entry hentry => ?_, fun a ha b hb hne => ?_⟩
    · rw [hentries] at hentry
      have hget : (Dict.ofList (identified readers (extracted items))).get? entry.1 = some entry.2 :=
        Dict.get?_eq_some.mpr (by rw [Dict.items_ofList hnodup]; exact hentry)
      rw [h.nodes _ (identified_blockId hentry), hget]
      rfl
    · rw [hentries] at ha hb
      obtain ⟨i, hi⟩ := List.getElem?_of_mem ha
      obtain ⟨j, hj⟩ := List.getElem?_of_mem hb
      have hij : i ≠ j := by
        rintro rfl
        rw [hi] at hj
        exact hne (congrArg Prod.fst (Option.some.inj hj))
      rw [h.joined_iff hnodup ha hj hne]
      refine and_congr_right fun hrefers => ?_
      exact hscoped i j a.2 b.2 hij (identified_getElem?.mpr ⟨a, hi, rfl⟩)
        (identified_getElem?.mpr ⟨b, hj, rfl⟩) hrefers

theorem indexed_tree {tree : List TreeFile} {items : List TerraformItem}
    (hitems : terraformItems readers tree = .ok items) :
    Indexed readers (indexBlocks readers items) (extracted items) :=
  indexed_items fun _ hnode => by
    obtain ⟨file, line, rfl⟩ := terraformItems_errors hitems hnode
    exact terraformError_id file line

/-- In one directory it is enough that no address repeats. -/
theorem scoped_of_one_directory
    (hdirectory : ∀ a ∈ blocks, ∀ b ∈ blocks, directoryOf a.file = directoryOf b.file)
    (haddresses : (blocks.map (addressOf readers)).Nodup) : ScopedReferences readers blocks := by
  intro i j a b _ ha hb _
  refine iff_of_true (fun k hk c hc hsame => ?_)
    (hdirectory a (List.mem_of_getElem? ha) b (List.mem_of_getElem? hb))
  obtain ⟨hlt, -⟩ := List.getElem?_eq_some_iff.mp hc
  have hpositions : (blocks.map (addressOf readers))[k]? = (blocks.map (addressOf readers))[j]? := by
    rw [List.getElem?_map, List.getElem?_map, hc, hb, Option.map_some, Option.map_some, hsame]
  rw [List.getElem?_inj (by rw [List.length_map]; exact hlt) haddresses] at hpositions
  omega

end

/-! One directory with a variable and an output that refers to it. -/

def referringTree : List TreeFile :=
  [(["main.tf"], "variable \"x\" \x7b\x7d\noutput \"o\" \x7b value = var.x \x7d\n")]

theorem referringTree_blocks :
    (terraformItems plainReaders referringTree).toOption.map extracted = some
      [⟨"variable", ["x"], "main.tf", 1, "", "variable \"x\""⟩,
        ⟨"output", ["o"], "main.tf", 2, " value = var.x ", "output \"o\""⟩] := by
  decide +kernel

theorem extracted_of_toOption {tree : List TreeFile} {readers : SourceReaders}
    {blocks : List TerraformBlock}
    (h : (terraformItems readers tree).toOption.map extracted = some blocks) :
    ∃ items, terraformItems readers tree = .ok items ∧ extracted items = blocks := by
  cases hread : terraformItems readers tree with
  | error failure => rw [hread] at h; cases h
  | ok items =>
    rw [hread] at h
    exact ⟨items, rfl, Option.some.inj h⟩

def localsDocument : Json :=
  .obj [("locals", .obj [("a", .str "x"), ("b", .str "y"), ("c", .str "z")])]

def localsTree : List TreeFile :=
  [(["main.tf.json"],
    "\x7b\"locals\": \x7b\"a\": \"x\", \"b\": \"y\", \"c\": \"z\"\x7d\x7d")]

def outputDocument : Json := .obj [("output", .obj [("o", .obj [("value", .str "var.x")])])]

def outputTree : List TreeFile :=
  [(["a", "main.tf"], "variable \"x\" \x7b\x7d\n"),
    (["b", "main.tf.json"],
      "\x7b\"output\": \x7b\"o\": \x7b\"value\": \"var.x\"\x7d\x7d\x7d")]

def documentReaders (document : Json) : SourceReaders :=
  { plainReaders with loads := fun _ => .ok document }

theorem localsDocument_items : terraformItems (documentReaders localsDocument) localsTree =
      .ok ([.str "x", .str "y", .str "z"].map fun value : Json =>
        .block ⟨"locals", [], "main.tf.json", 1, value.canonical, "locals"⟩) := by
  have hsorted : sortedMembers (.obj [("a", .str "x"), ("b", .str "y"), ("c", .str "z")]) =
      [("a", .str "x"), ("b", .str "y"), ("c", .str "z")] :=
    List.mergeSort_of_pairwise (by decide)
  have hdocument : sortedMembers localsDocument =
      [("locals", .obj [("a", .str "x"), ("b", .str "y"), ("c", .str "z")])] :=
    List.mergeSort_of_pairwise (by decide)
  have hblocks : jsonBlocks "main.tf.json" localsDocument =
      [.str "x", .str "y", .str "z"].map fun value : Json =>
        ⟨"locals", [], "main.tf.json", 1, value.canonical, "locals"⟩ := by
    unfold jsonBlocks
    rw [hdocument, List.flatMap_singleton, if_pos (by decide)]
    unfold jsonBlocksOf
    rw [if_neg (by decide), hsorted]
    rfl
  have htexts : unexcluded ".tf" localsTree = [] := by decide +kernel
  have hdocuments : unexcluded ".tf.json" localsTree = localsTree := by decide +kernel
  unfold terraformItems
  rw [htexts, hdocuments]
  show Except.ok (([] : List TerraformItem) ++
    ((jsonBlocks "main.tf.json" localsDocument).map .block ++ [])) = _
  rw [hblocks]
  rfl

end Bantam
