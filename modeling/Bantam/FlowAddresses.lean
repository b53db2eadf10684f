import Bantam.CatalogClosure

/-! The blocks that a flow of their own starts at keep nodes of their own exactly when their
addresses differ. -/
namespace Bantam

/-- The types of blocks with a flow of their own. -/
def flowTypes : List String := ["resource", "module", "output"]

def flowBlocks (blocks : List TerraformBlock) : List TerraformBlock :=
  blocks.filter fun block => block.blockType ∈ flowTypes

/-! The types of blocks. -/

section
variable {readers : SourceReaders}

theorem header_type {word : Char → Bool} {before : Option Char} {s : List Char} {m : Pattern.Match}
    (h : hclHeader.matchAt word before s = some m) : ':' ∉ m.group 0 := by
  obtain ⟨last, hlast, rfl⟩ := Option.map_eq_some_iff.mp h
  have hends := List.mem_of_mem_head? (Option.mem_def.mpr hlast)
  obtain ⟨first, hfirst, hends⟩ := Pattern.mem_ends_all_cons.mp hends
  obtain ⟨second, hsecond, hends⟩ := Pattern.mem_ends_all_cons.mp hends
  obtain ⟨third, hthird, hends⟩ := Pattern.mem_ends_all_cons.mp hends
  obtain ⟨mid, taken, hmid, htaken, rfl⟩ := Pattern.mem_ends_group hthird
  have hnone : mid.groups = [] :=
    ((Pattern.ends_groups rfl hmid).trans (Pattern.ends_groups rfl hsecond)).trans
      (Pattern.ends_groups rfl hfirst)
  have hprefix := Pattern.groups_prefix hends
  rw [hnone, List.nil_append] at hprefix
  obtain ⟨later, hlater⟩ := hprefix
  show ':' ∉ last.groups[0]?.getD []
  rw [← hlater]
  exact fun hcolon => absurd (htaken.uses ':' hcolon) (by decide)

theorem textItems_type {file : TreeFile} {items : List TerraformItem}
    (h : textItems readers file = .ok items) {block : TerraformBlock}
    (hblock : .block block ∈ items) : ':' ∉ block.blockType.toList := by
  unfold textItems at h
  split at h
  · cases h
  · next blocks hblocks =>
    obtain rfl := Except.ok.inj h
    split_ifs at hblock
    · cases List.mem_singleton.mp hblock
    · obtain ⟨own, hown, hsame⟩ := List.mem_map.mp hblock
      cases hsame
      obtain ⟨found, hfound, rfl⟩ := Option.map_eq_some_iff.mp hblocks
      obtain ⟨read, hread, rfl⟩ := List.mem_filterMap.mp hown
      obtain ⟨m, hm, hread⟩ := Fallible.mem_mapM_some hfound hread
      obtain ⟨before, text, hmatch⟩ := Pattern.mem_findAll hm
      unfold hclBlock at hread
      split at hread
      · cases hread
      · obtain ⟨labels, -, hsome⟩ := Option.map_eq_some_iff.mp hread
        cases hsome
        rw [String.toList_ofList]
        exact header_type hmatch

theorem jsonBlocks_type {file : String} {document : Json} {block : TerraformBlock}
    (h : block ∈ jsonBlocks file document) : ':' ∉ block.blockType.toList := by
  obtain ⟨entry, -, hentry⟩ := List.mem_flatMap.mp h
  split at hentry
  · next htype =>
    have hplain : ∀ type ∈ jsonBlockTypes, ':' ∉ type.toList := by decide
    have hsame : block.blockType = entry.1 := by
      unfold jsonBlocksOf at hentry
      split at hentry
      · obtain ⟨kind, -, hkind⟩ := List.mem_flatMap.mp hentry
        obtain ⟨own, -, rfl⟩ := List.mem_map.mp hkind
        rfl
      · obtain ⟨own, -, rfl⟩ := List.mem_map.mp hentry
        rfl
    rw [hsame]
    exact hplain _ htype
  · exact absurd hentry List.not_mem_nil

theorem extracted_type {tree : List TreeFile} {items : List TerraformItem}
    (h : terraformItems readers tree = .ok items) {block : TerraformBlock}
    (hblock : block ∈ extracted items) : ':' ∉ block.blockType.toList := by
  obtain ⟨item, hitem, hsome⟩ := List.mem_filterMap.mp hblock
  cases item with
  | parseError node => cases hsome
  | block own =>
    cases hsome
    rcases mem_terraformItems h hitem with ⟨file, own, hread, hmem⟩ | ⟨file, hmem⟩
    · exact textItems_type hread hmem
    · unfold jsonItems at hmem
      split at hmem
      · cases List.mem_singleton.mp hmem
      · obtain ⟨own, hown, hsame⟩ := List.mem_map.mp hmem
        cases hsame
        exact jsonBlocks_type hown

end

/-! Which blocks keep their plain identifiers. -/

section
variable {readers : SourceReaders} {blocks : List TerraformBlock} {block other : TerraformBlock}
  {id : String}

theorem cut_inj {s t u v : List Char} {c : Char} (hs : c ∉ s) (ht : c ∉ t)
    (h : s ++ c :: u = t ++ c :: v) : s = t ∧ u = v := by
  induction s generalizing t with
  | nil =>
    cases t with
    | nil => exact ⟨rfl, List.tail_eq_of_cons_eq h⟩
    | cons d t =>
      obtain ⟨rfl, -⟩ := List.cons_eq_cons.mp h
      exact absurd List.mem_cons_self ht
  | cons d s ih =>
    cases t with
    | nil =>
      obtain ⟨rfl, -⟩ := List.cons_eq_cons.mp h
      exact absurd List.mem_cons_self hs
    | cons e t =>
      obtain ⟨rfl, hrest⟩ := List.cons_eq_cons.mp h
      obtain ⟨rfl, hafter⟩ := ih (List.not_mem_of_not_mem_cons hs) (List.not_mem_of_not_mem_cons ht)
        hrest
      exact ⟨rfl, hafter⟩

/-- The place that sets a block apart from others of its address. -/
def placeOf (block : TerraformBlock) : String :=
  "@" ++ block.file ++ ":" ++ toString block.line

theorem placedOf_eq : placedOf readers block = plainOf readers block ++ placeOf block := by
  simp only [placedOf, placeOf, String.append_assoc]

theorem placed_longer : (plainOf readers block).length < (placedOf readers block).length := by
  rw [placedOf_eq, String.length_append, placeOf, String.append_assoc, String.append_assoc,
    String.length_append]
  have hmark : "@".length = 1 := rfl
  omega

theorem placed_ne_plain : placedOf readers block ≠ plainOf readers block :=
  fun h => absurd (congrArg String.length h) (Nat.ne_of_gt placed_longer)

/-- The type and the address of a block can be read off its identifier. -/
theorem plain_inj (hblock : ':' ∉ block.blockType.toList) (hother : ':' ∉ other.blockType.toList)
    {x y : String} (h : plainOf readers block ++ x = plainOf readers other ++ y) :
    block.blockType = other.blockType ∧
      addressOf readers block ++ x = addressOf readers other ++ y := by
  have hcolon : ":".toList = [':'] := rfl
  have hlists := congrArg String.toList h
  simp only [plainOf, plainId, String.toList_append, List.append_assoc, List.append_cancel_left_eq,
    hcolon, List.singleton_append] at hlists
  obtain ⟨htype, haddress⟩ := cut_inj hblock hother hlists
  refine ⟨String.toList_injective htype, String.toList_injective ?_⟩
  rw [String.toList_append, String.toList_append]
  exact haddress

/-- An entry has its plain identifier, or that of its place where the plain one is taken. -/
theorem identified_entry {entry : String × TerraformBlock}
    (h : entry ∈ identified readers blocks) : entry.1 = plainOf readers entry.2 ∨
      entry.1 = placedOf readers entry.2 ∧
        plainOf readers entry.2 ∈ (identified readers blocks).map Prod.fst := by
  induction blocks using List.reverseRecOn with
  | nil => exact absurd h List.not_mem_nil
  | append_singleton blocks block ih =>
    have hkeys : ∀ id, id ∈ (identified readers blocks).map Prod.fst →
        id ∈ (identified readers (blocks ++ [block])).map Prod.fst := by
      intro id hid
      rw [identified_snoc, List.map_append]
      exact List.mem_append_left _ hid
    have hentry := h
    rw [identified_snoc] at hentry
    cases List.mem_append.mp hentry with
    | inl hold => exact (ih hold).imp_right fun hplaced => ⟨hplaced.1, hkeys _ hplaced.2⟩
    | inr hlast =>
      rw [List.mem_singleton.mp hlast]
      by_cases huse : plainOf readers block ∈ (identified readers blocks).map Prod.fst
      · exact .inr ⟨if_pos huse, hkeys _ huse⟩
      · exact .inl (if_neg huse)

theorem identified_append {entry : String × TerraformBlock}
    (h : entry ∈ identified readers blocks) :
    ∃ x, entry.1 = plainOf readers entry.2 ++ x := by
  rcases identified_entry h with hplain | ⟨hplaced, -⟩
  · exact ⟨"", hplain.trans (String.append_empty).symm⟩
  · exact ⟨placeOf entry.2, hplaced.trans placedOf_eq⟩

theorem identified_mem {entry : String × TerraformBlock}
    (h : entry ∈ identified readers blocks) : entry.2 ∈ blocks := by
  rw [← identified_blocks readers blocks]
  exact List.mem_map_of_mem h

theorem kept_entry (h : (Dict.ofList (identified readers blocks)).get? id = some block) :
    (id, block) ∈ identified readers blocks := Dict.mem_ofList (Dict.get?_eq_some.mp h)

theorem exists_kept (h : id ∈ (identified readers blocks).map Prod.fst) :
    ∃ block, (Dict.ofList (identified readers blocks)).get? id = some block :=
  Dict.mem_keys_iff.mp (Dict.mem_keys_ofList.mpr h)

/-- A block that is kept at its plain identifier is the only one that had it. -/
theorem kept_plain (h : (Dict.ofList (identified readers blocks)).get? id = some block)
    (hplain : id = plainOf readers block) {entry : String × TerraformBlock}
    (hentry : entry ∈ identified readers blocks) (hid : entry.1 = id) : entry.2 = block := by
  induction blocks using List.reverseRecOn with
  | nil => exact absurd hentry List.not_mem_nil
  | append_singleton blocks last ih =>
    rw [identified_snoc] at hentry
    rw [identified_snoc, ofList_snoc, Dict.get?_set] at h
    split at h
    · next hlast =>
      cases h
      cases List.mem_append.mp hentry with
      | inl hold =>
        have huse : plainOf readers last ∈ (identified readers blocks).map Prod.fst := by
          rw [← hplain, ← hid]
          exact List.mem_map_of_mem hold
        have hplaced : id = placedOf readers last := hlast.trans (if_pos huse)
        exact absurd (hplaced.symm.trans hplain) placed_ne_plain
      | inr hnew => rw [List.mem_singleton.mp hnew]
    · next hlast =>
      cases List.mem_append.mp hentry with
      | inl hold => exact ih h hold
      | inr hnew =>
        rw [List.mem_singleton.mp hnew] at hid
        exact absurd hid.symm hlast

variable (readers) in
/-- No two blocks that are kept and have a flow share an address. -/
def KeptApart (blocks : List TerraformBlock) : Prop :=
  ∀ id id' block block', (Dict.ofList (identified readers blocks)).get? id = some block →
    (Dict.ofList (identified readers blocks)).get? id' = some block' →
    block.blockType ∈ flowTypes → block'.blockType ∈ flowTypes →
    addressOf readers block = addressOf readers block' → id = id'

variable (readers) in
/-- No block with a flow was given its place. -/
def AllPlain (blocks : List TerraformBlock) : Prop :=
  ∀ entry ∈ identified readers blocks, entry.2.blockType ∈ flowTypes →
    entry.1 = plainOf readers entry.2

variable (htypes : ∀ block ∈ blocks, ':' ∉ block.blockType.toList)
include htypes

/-- The block that is kept at the identifier of a block has its type. -/
theorem kept_type {entry : String × TerraformBlock} (hentry : entry ∈ identified readers blocks)
    {x : String} (hother : ':' ∉ other.blockType.toList)
    (hid : entry.1 = plainOf readers other ++ x) : entry.2.blockType = other.blockType := by
  obtain ⟨y, hy⟩ := identified_append hentry
  exact (plain_inj (htypes _ (identified_mem hentry)) hother (hy.symm.trans hid)).1

/-- A shorter identifier than that of a block's place is kept by a block of the same address. -/
theorem KeptApart.plain (h : KeptApart readers blocks)
    (hkept : (Dict.ofList (identified readers blocks)).get? id = some block)
    (hflow : block.blockType ∈ flowTypes) : id = plainOf readers block := by
  induction hlength : id.length using Nat.strong_induction_on generalizing id block with
  | _ n ih =>
    have hentry := kept_entry hkept
    have htype := htypes block (identified_mem hentry)
    rcases identified_entry hentry with hplain | ⟨hplaced, hin⟩
    · exact hplain
    · dsimp only at hplaced hin
      obtain ⟨first, hfirst⟩ := exists_kept hin
      have hfirstEntry := kept_entry hfirst
      have hsame := kept_type htypes hfirstEntry htype (String.append_empty).symm
      have hshorter : (plainOf readers block).length < n := by
        rw [← hlength, hplaced]
        exact placed_longer
      have hplain := ih _ hshorter hfirst (hsame ▸ hflow) rfl
      have haddress := plain_inj htype (htypes _ (identified_mem hfirstEntry))
        (congrArg (· ++ "") hplain)
      simp only [String.append_empty] at haddress
      have hid := h id _ block first hkept hfirst hflow (hsame ▸ hflow) haddress.2
      exact absurd (hplaced.symm.trans hid) placed_ne_plain

theorem KeptApart.own (h : KeptApart readers blocks) {entry : String × TerraformBlock}
    (hentry : entry ∈ identified readers blocks) (hflow : entry.2.blockType ∈ flowTypes) :
    entry.1 = plainOf readers entry.2 ∧
      (Dict.ofList (identified readers blocks)).get? entry.1 = some entry.2 := by
  obtain ⟨kept, hkept⟩ := exists_kept (List.mem_map_of_mem (f := Prod.fst) hentry)
  obtain ⟨x, hx⟩ := identified_append hentry
  have hsame := kept_type htypes (kept_entry hkept) (htypes _ (identified_mem hentry)) hx
  have hplain := h.plain htypes hkept (hsame ▸ hflow)
  have heq := kept_plain hkept hplain hentry rfl
  rw [heq]
  exact ⟨hplain, hkept⟩

theorem KeptApart.all_plain (h : KeptApart readers blocks) : AllPlain readers blocks :=
  fun _ hentry hflow => (h.own htypes hentry hflow).1

omit htypes in
theorem exists_entry (h : block ∈ blocks) : ∃ entry ∈ identified readers blocks, entry.2 = block := by
  rw [← identified_blocks readers blocks] at h
  exact List.mem_map.mp h

omit htypes in
theorem allPlain_snoc (h : AllPlain readers (blocks ++ [block])) : AllPlain readers blocks := by
  intro entry hentry
  apply h entry
  rw [identified_snoc]
  exact List.mem_append_left _ hentry

omit htypes in
theorem flowBlocks_snoc_pos (hflow : block.blockType ∈ flowTypes) :
    flowBlocks (blocks ++ [block]) = flowBlocks blocks ++ [block] := by
  simp [flowBlocks, List.filter_append, hflow]

omit htypes in
theorem flowBlocks_snoc_neg (hflow : block.blockType ∉ flowTypes) :
    flowBlocks (blocks ++ [block]) = flowBlocks blocks := by
  simp [flowBlocks, List.filter_append, hflow]

omit htypes in
theorem mem_flowBlocks : block ∈ flowBlocks blocks ↔
    block ∈ blocks ∧ block.blockType ∈ flowTypes := by
  rw [flowBlocks, List.mem_filter, decide_eq_true_eq]

omit htypes in
theorem AllPlain.nodup (h : AllPlain readers blocks) :
    ((flowBlocks blocks).map (plainOf readers)).Nodup := by
  induction blocks using List.reverseRecOn with
  | nil => exact List.nodup_nil
  | append_singleton blocks last ih =>
    have hbefore := ih (allPlain_snoc h)
    by_cases hflow : last.blockType ∈ flowTypes
    · have hnew : plainOf readers last ∉ (identified readers blocks).map Prod.fst := by
        intro huse
        have hlast := h (nextId readers (identified readers blocks) last, last)
          (by rw [identified_snoc]; exact List.mem_append_right _ List.mem_cons_self) hflow
        exact placed_ne_plain ((if_pos huse).symm.trans hlast)
      rw [flowBlocks_snoc_pos hflow, List.map_append, List.map_singleton, List.nodup_append]
      refine ⟨hbefore, List.nodup_singleton _, fun id hid id' hid' hsame => hnew ?_⟩
      obtain ⟨block, hblock, rfl⟩ := List.mem_map.mp hid
      obtain ⟨hmem, hown⟩ := mem_flowBlocks.mp hblock
      obtain ⟨entry, hentry, rfl⟩ := exists_entry hmem
      rw [← List.mem_singleton.mp hid', ← hsame, ← allPlain_snoc h entry hentry hown]
      exact List.mem_map_of_mem hentry
    · rw [flowBlocks_snoc_neg hflow]
      exact hbefore

theorem KeptApart.nodup (h : KeptApart readers blocks) :
    ((flowBlocks blocks).map (addressOf readers)).Nodup := by
  have hplain := (h.all_plain htypes).nodup
  refine List.Nodup.map_on (fun x hx y hy haddress => ?_) (hplain.of_map (plainOf readers))
  obtain ⟨hmemx, hflowx⟩ := mem_flowBlocks.mp hx
  obtain ⟨hmemy, hflowy⟩ := mem_flowBlocks.mp hy
  obtain ⟨ex, hex, rfl⟩ := exists_entry hmemx
  obtain ⟨ey, hey, rfl⟩ := exists_entry hmemy
  obtain ⟨hidx, hkeptx⟩ := h.own htypes hex hflowx
  obtain ⟨hidy, hkepty⟩ := h.own htypes hey hflowy
  have hid := h _ _ _ _ hkeptx hkepty hflowx hflowy haddress
  rw [hidx, hidy] at hid
  exact List.inj_on_of_nodup_map hplain hx hy hid

theorem allPlain_of_nodup (h : ((flowBlocks blocks).map (addressOf readers)).Nodup) :
    AllPlain readers blocks := by
  induction blocks using List.reverseRecOn with
  | nil => exact fun entry hentry => absurd hentry List.not_mem_nil
  | append_singleton blocks last ih =>
    have htypesBefore : ∀ block ∈ blocks, ':' ∉ block.blockType.toList :=
      fun block hblock => htypes block (List.mem_append_left _ hblock)
    have htypeLast := htypes last (List.mem_append_right _ List.mem_cons_self)
    have hbefore : AllPlain readers blocks := by
      have hsub : (flowBlocks blocks).Sublist (flowBlocks (blocks ++ [last])) :=
        (List.sublist_append_left blocks [last]).filter _
      exact ih htypesBefore ((hsub.map _).nodup h)
    intro entry hentry hflow
    rw [identified_snoc] at hentry
    cases List.mem_append.mp hentry with
    | inl hold => exact hbefore entry hold hflow
    | inr hnew =>
      rw [List.mem_singleton.mp hnew] at hflow ⊢
      refine if_neg fun huse => ?_
      obtain ⟨other, hother, hid⟩ := List.mem_map.mp huse
      have hsame := kept_type htypesBefore hother htypeLast
        (hid.trans (String.append_empty).symm)
      have hotherFlow : other.2.blockType ∈ flowTypes := hsame ▸ hflow
      have hplain : plainOf readers other.2 = plainOf readers last :=
        (hbefore other hother hotherFlow).symm.trans hid
      have haddress := plain_inj (htypesBefore _ (identified_mem hother)) htypeLast
        (congrArg (· ++ "") hplain)
      simp only [String.append_empty] at haddress
      rw [flowBlocks_snoc_pos hflow, List.map_append, List.nodup_append] at h
      refine h.2.2 _ (List.mem_map_of_mem ?_) _ List.mem_cons_self haddress.2
      exact mem_flowBlocks.mpr ⟨identified_mem hother, hotherFlow⟩

/-- The blocks that are kept have addresses of their own exactly when all blocks do. -/
theorem keptApart_iff : KeptApart readers blocks ↔
    ((flowBlocks blocks).map (addressOf readers)).Nodup := by
  constructor
  · exact fun h => h.nodup htypes
  · intro h id id' block block' hkept hkept' hflow hflow' haddress
    have hplain := allPlain_of_nodup htypes h
    have hentry := kept_entry hkept
    have hentry' := kept_entry hkept'
    have hsame : block = block' := List.inj_on_of_nodup_map h
      (mem_flowBlocks.mpr ⟨identified_mem hentry, hflow⟩)
      (mem_flowBlocks.mpr ⟨identified_mem hentry', hflow'⟩) haddress
    rw [show id = plainOf readers block from hplain _ hentry hflow,
      show id' = plainOf readers block' from hplain _ hentry' hflow', hsame]

end

/-! The nodes that flows start at. -/

section
variable {readers : SourceReaders} {blocks : List TerraformBlock} {graph : CodeGraph}

theorem terraformKind_flow {type : String} : terraformKind type ∈ flowKinds ↔ type ∈ flowTypes := by
  unfold terraformKind flowKinds flowTypes
  simp only [List.lookup_cons, List.lookup_nil]
  repeat' split
  all_goals simp_all

/-- A node that neither a block nor a flow has to do with. -/
structure CodeNode.Apart (node : CodeNode) : Prop where
  id : ¬BlockId node.id
  kind : node.kind ∉ flowKinds

/-- Only blocks have the kinds of nodes that flows start at. -/
def FlowsAtBlocks (graph : CodeGraph) : Prop :=
  ∀ item ∈ graph.nodes.items, item.2.kind ∈ flowKinds → BlockId item.1

theorem FlowsAtBlocks.addNode (h : FlowsAtBlocks graph) {node : CodeNode}
    (hnode : node.kind ∈ flowKinds → BlockId node.id) : FlowsAtBlocks (graph.addNode node) := by
  intro item hitem hkind
  cases Dict.mem_setItems hitem with
  | inl hold => exact h item hold hkind
  | inr hnew =>
    subst hnew
    exact hnode hkind

theorem FlowsAtBlocks.addBlock {state : TerraformState} (h : FlowsAtBlocks state.graph)
    (block : TerraformBlock) : FlowsAtBlocks (state.addBlock readers block).graph := by
  have hid : BlockId (blockId state.graph (terraformAddress readers.sha256 block) block) := by
    unfold blockId
    split
    · exact (((plainOf_blockId readers block).append _).append _).append _ |>.append _
    · exact plainOf_blockId readers block
  apply List.foldlRecOn
  · exact h.addNode fun _ => hid
  · intro graph hgraph check hcheck
    have hkind : check.kind = "check" := by
      split at hcheck
      · exact (mem_variableChecks hcheck).1
      · exact absurd hcheck List.not_mem_nil
    exact hgraph.addNode fun hflow => absurd (hkind ▸ hflow) (by decide)

theorem flowsAtBlocks_indexBlocks {items : List TerraformItem}
    (herrors : ∀ node, .parseError node ∈ items → node.Apart) :
    FlowsAtBlocks (indexBlocks readers items).graph := by
  apply @List.foldlRecOn _ _ (fun state : TerraformState => FlowsAtBlocks state.graph)
  · exact fun item hitem => absurd hitem List.not_mem_nil
  · intro state hstate item hitem
    cases item with
    | block block => exact hstate.addBlock block
    | parseError node => exact hstate.addNode fun hkind => absurd hkind (herrors node hitem).kind

variable (readers) in
/-- The nodes of the graph that flows start at are those of these blocks. -/
structure BlockNodes (blocks : List TerraformBlock) (graph : CodeGraph) : Prop where
  nodes : ∀ id, BlockId id → graph.nodes.get? id =
    ((Dict.ofList (identified readers blocks)).get? id).map fun block =>
      blockNode id (addressOf readers block) block
  flows : FlowsAtBlocks graph

theorem BlockNodes.addNode (h : BlockNodes readers blocks graph) {node : CodeNode}
    (hnode : node.Apart) : BlockNodes readers blocks (graph.addNode node) := by
  refine ⟨fun id hid => ?_, h.flows.addNode fun hkind => absurd hkind hnode.kind⟩
  show (graph.nodes.set node.id node).get? id = _
  rw [Dict.get?_set, if_neg fun hsame : id = node.id => hnode.id (hsame ▸ hid)]
  exact h.nodes id hid

theorem BlockNodes.addEdge (h : BlockNodes readers blocks graph) (edge : GraphEdge)
    (flowId : Option String) : BlockNodes readers blocks (graph.addEdge edge flowId) :=
  ⟨h.nodes, h.flows⟩

theorem terraformError_apart (file : TreeFile) (line : Nat) : (terraformError file line).Apart :=
  ⟨terraformError_id file line, by show "parse_error" ∉ flowKinds; decide⟩

theorem documentNodes_apart {redact : String → String} {tree : List TreeFile}
    {document : CodeNode × String} (h : document ∈ documentNodes redact tree) :
    document.1.Apart := by
  obtain ⟨file, -, rfl⟩ := List.mem_map.mp h
  refine ⟨not_blockId _ (by decide) (by decide), ?_⟩
  show "documentation" ∉ flowKinds
  decide

/-- The graph that the flows are read off has the nodes of the blocks. -/
theorem blockNodes_documented {tree : List TreeFile} {items : List TerraformItem}
    (hitems : terraformItems readers tree = .ok items) (redact : String → String)
    (mentions : CodeNode → String → Bool) :
    BlockNodes readers (extracted items) ((indexReferences readers
      (indexBlocks readers items)).indexDocuments (documentNodes redact tree) mentions) := by
  have hindexed : BlockNodes readers (extracted items) (indexBlocks readers items).graph := by
    refine ⟨(indexed_tree hitems).nodes, flowsAtBlocks_indexBlocks fun node hnode => ?_⟩
    obtain ⟨file, line, rfl⟩ := terraformItems_errors hitems hnode
    exact terraformError_apart file line
  have hreferences :
      BlockNodes readers (extracted items) (indexReferences readers (indexBlocks readers items)) := by
    apply List.foldlRecOn _ _ hindexed
    intro graph hgraph item _
    apply List.foldlRecOn _ _ hgraph
    intro graph hgraph target _
    exact hgraph.addEdge _ _
  have hdocuments : BlockNodes readers (extracted items)
      (((documentNodes redact tree).map (·.1)).foldl CodeGraph.addNode
        (indexReferences readers (indexBlocks readers items))) := by
    apply List.foldlRecOn _ _ hreferences
    intro graph hgraph node hnode
    obtain ⟨document, hdocument, rfl⟩ := List.mem_map.mp hnode
    exact hgraph.addNode (documentNodes_apart hdocument)
  apply List.foldlRecOn _ _ hdocuments
  intro graph hgraph node _
  apply List.foldlRecOn _ _ hgraph
  intro graph hgraph document _
  exact hgraph.addEdge _ _

/-! The identifiers of the flows. -/

variable (readers) in
/-- The blocks that are kept and have a flow, under their identifiers. -/
def keptFlows (blocks : List TerraformBlock) : List (String × TerraformBlock) :=
  (Dict.ofList (identified readers blocks)).items.filter fun item => item.2.blockType ∈ flowTypes

theorem mem_keptFlows {item : String × TerraformBlock} : item ∈ keptFlows readers blocks ↔
    (Dict.ofList (identified readers blocks)).get? item.1 = some item.2 ∧
      item.2.blockType ∈ flowTypes := by
  rw [keptFlows, List.mem_filter, decide_eq_true_eq, Dict.get?_eq_some]

theorem nodup_keptFlows : ((keptFlows readers blocks).map Prod.fst).Nodup :=
  (List.filter_sublist.map _).nodup (Dict.ofList (identified readers blocks)).distinct

/-- The nodes with a flow are those of the blocks that are kept. -/
theorem BlockNodes.perm (h : BlockNodes readers blocks graph) :
    (graph.nodes.items.filter fun item => item.2.kind ∈ flowKinds).Perm
      ((keptFlows readers blocks).map fun item =>
        (item.1, blockNode item.1 (addressOf readers item.2) item.2)) := by
  have hkeys : (graph.nodes.items.filter fun item => item.2.kind ∈ flowKinds).Nodup :=
    ((List.filter_sublist.map Prod.fst).nodup graph.nodes.distinct).of_map Prod.fst
  have hkept : ((keptFlows readers blocks).map fun item =>
      (item.1, blockNode item.1 (addressOf readers item.2) item.2)).Nodup := by
    apply List.Nodup.of_map Prod.fst
    rw [List.map_map]
    exact nodup_keptFlows
  rw [List.perm_ext_iff_of_nodup hkeys hkept]
  rintro ⟨id, node⟩
  rw [List.mem_filter, decide_eq_true_eq, List.mem_map, ← Dict.get?_eq_some]
  constructor
  · rintro ⟨hnode, hkind⟩
    have hid := h.flows (id, node) (Dict.get?_eq_some.mp hnode) hkind
    rw [h.nodes id hid, Option.map_eq_some_iff] at hnode
    obtain ⟨block, hblock, rfl⟩ := hnode
    exact ⟨(id, block), mem_keptFlows.mpr ⟨hblock, terraformKind_flow.mp hkind⟩, rfl⟩
  · rintro ⟨⟨key, block⟩, hitem, hsame⟩
    obtain ⟨hkept, hflow⟩ := mem_keptFlows.mp hitem
    cases hsame
    have hid : BlockId key := identified_blockId (kept_entry hkept)
    refine ⟨?_, terraformKind_flow.mpr hflow⟩
    rw [h.nodes key hid, Option.map_eq_some_iff]
    exact ⟨block, hkept, rfl⟩

theorem BlockNodes.flowIds (h : BlockNodes readers blocks graph) :
    ((terraformFlows graph).map (·.flowId)).Perm
      ((keptFlows readers blocks).map fun item =>
        "default:terraform:" ++ addressOf readers item.2) := by
  have hsorted : (((graph.nodes.items.map (·.2)).mergeSort fun a b => decide (a.id ≤ b.id)).filter
      fun node => node.kind ∈ flowKinds).Perm
        ((graph.nodes.items.filter fun item => item.2.kind ∈ flowKinds).map (·.2)) := by
    have hfilter := (List.mergeSort_perm (graph.nodes.items.map (·.2))
      fun a b => decide (a.id ≤ b.id)).filter fun node => decide (node.kind ∈ flowKinds)
    rw [List.filter_map] at hfilter
    exact hfilter
  have hnodes := (hsorted.trans (h.perm.map (·.2))).map fun node => "default:terraform:" ++ node.address
  unfold terraformFlows
  rw [List.map_map]
  rw [List.map_map, List.map_map] at hnodes
  exact hnodes

theorem nodup_keptFlows_addresses :
    ((keptFlows readers blocks).map fun item => addressOf readers item.2).Nodup ↔
      KeptApart readers blocks := by
  rw [List.nodup_map_iff_inj_on (nodup_keptFlows.of_map Prod.fst)]
  constructor
  · intro h id id' block block' hkept hkept' hflow hflow' haddress
    exact congrArg Prod.fst (h (id, block) (mem_keptFlows.mpr ⟨hkept, hflow⟩) (id', block')
      (mem_keptFlows.mpr ⟨hkept', hflow'⟩) haddress)
  · rintro h ⟨id, block⟩ hitem ⟨id', block'⟩ hitem' haddress
    obtain ⟨hkept, hflow⟩ := mem_keptFlows.mp hitem
    obtain ⟨hkept', hflow'⟩ := mem_keptFlows.mp hitem'
    obtain rfl := h id id' block block' hkept hkept' hflow hflow' haddress
    have hsame : block = block' := Option.some.inj (hkept.symm.trans hkept')
    rw [hsame]

/-- Once the addresses differ, the blocks that are kept are all the blocks. -/
theorem KeptApart.mem_keptFlows (htypes : ∀ block ∈ blocks, ':' ∉ block.blockType.toList)
    (h : KeptApart readers blocks) {block : TerraformBlock} :
    (∃ item ∈ keptFlows readers blocks, item.2 = block) ↔ block ∈ flowBlocks blocks := by
  constructor
  · rintro ⟨item, hitem, rfl⟩
    obtain ⟨hkept, hflow⟩ := Bantam.mem_keptFlows.mp hitem
    exact mem_flowBlocks.mpr ⟨identified_mem (kept_entry hkept), hflow⟩
  · intro hblock
    obtain ⟨hmem, hflow⟩ := mem_flowBlocks.mp hblock
    obtain ⟨entry, hentry, rfl⟩ := @exists_entry readers _ _ hmem
    exact ⟨entry, Bantam.mem_keptFlows.mpr ⟨(h.own htypes hentry hflow).2, hflow⟩, rfl⟩

end

end Bantam
