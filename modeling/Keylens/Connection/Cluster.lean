import Keylens.Connection.Redis
import Keylens.Connection.Server
import Keylens.Library.Lines
import Keylens.Library.Runs
import Mathlib.Data.List.Nodup

/-!
# The topology of a cluster

`cluster_topology` reads `CLUSTER INFO` and, if that says that cluster mode is enabled,
`CLUSTER NODES`.  Both parsers invert what a server writes, but a server that writes no
`cluster_enabled` line into `CLUSTER INFO` is never asked for its nodes.
-/

namespace Keylens.Connection

open Keylens.Library

/-- What is known of a cluster before anything is read. -/
def ClusterTopology.empty : ClusterTopology :=
  { enabled := false, state := [], slotsAssigned := 0, knownNodes := 0, size := 0, nodes := [] }

/-- A `u64`, or zero. -/
def parseCounter (text : Str) : Nat :=
  (parseUnsigned (2 ^ 64 - 1) (trim text)).getD 0

/-- One field of `CLUSTER INFO`. -/
def readInfoField (topology : ClusterTopology) (field : Str × Str) : ClusterTopology :=
  let (name, value) := field
  if name = "cluster_enabled".toList then
    { topology with enabled := trim value = "1".toList }
  else if name = "cluster_state".toList then { topology with state := trim value }
  else if name = "cluster_slots_assigned".toList then
    { topology with slotsAssigned := parseCounter value }
  else if name = "cluster_known_nodes".toList then
    { topology with knownNodes := parseCounter value }
  else if name = "cluster_size".toList then { topology with size := parseCounter value }
  else topology

def readInfoLine (topology : ClusterTopology) (line : Str) : ClusterTopology :=
  match splitOnce (trim line) ":".toList with
  | some field => readInfoField topology field
  | none => topology

def parseClusterInfo (raw : Str) : ClusterTopology :=
  (lines raw).foldl readInfoLine .empty

/-- One row of `CLUSTER NODES`:
`<id> <ip:port@cport[,hostname]> <flags> <master> <ping> <pong> <epoch> <link> <slots...>`. -/
def parseNodeRow (line : Str) : Option ClusterNode :=
  match splitAsciiWhitespace line with
  | id :: addr :: flags :: _ :: _ :: _ :: _ :: link :: slots =>
      some
        { id
          -- The bus port and a hostname come after the address.
          addr := addr.takeWhile fun c => c ≠ '@'
          flags
          master := "master".toList <:+: flags
          linkState := link
          -- Entries in brackets are migrations in flight.
          slots := slots.filter fun slot => slot.head? ≠ some '['
          myself := "myself".toList <:+: flags }
  | _ => none

def parseClusterNodes (raw : Str) : List ClusterNode :=
  ((lines raw).filter fun line => trim line ≠ []).filterMap parseNodeRow

/-- The topology that the server reports; the nodes are asked for only if cluster mode is
enabled. -/
def Conn.clusterTopology (conn : Conn) : Result ClusterTopology :=
  if !conn.capabilities.has .cluster then .ok .empty
  else do
    let api := conn.client.api
    let info ← conn.cmd .cluster [.string "INFO".toList]
    let topology := parseClusterInfo (api.displayString info)
    if topology.enabled then
      match conn.cmd .cluster [.string "NODES".toList] with
      | .ok nodes => .ok { topology with nodes := parseClusterNodes (api.displayString nodes) }
      | .error _ => .ok topology
    else .ok topology

/-! ## What a server writes -/

/-- A reply to `CLUSTER INFO`: fields of different names, among them the state of the
cluster and three counters. -/
structure InfoReply where
  fields : List (Str × Str)
  state : Str
  slotsAssigned : Nat
  knownNodes : Nat
  size : Nat
  nodup : (fields.map Prod.fst).Nodup
  isWord : ∀ field ∈ fields, IsWord field.1 ∧ ':' ∉ field.1 ∧ IsWord field.2
  state_mem : ("cluster_state".toList, state) ∈ fields
  slotsAssigned_mem : ("cluster_slots_assigned".toList, decimal slotsAssigned) ∈ fields
  knownNodes_mem : ("cluster_known_nodes".toList, decimal knownNodes) ∈ fields
  size_mem : ("cluster_size".toList, decimal size) ∈ fields
  slotsAssigned_lt : slotsAssigned < 2 ^ 64
  knownNodes_lt : knownNodes < 2 ^ 64
  size_lt : size < 2 ^ 64

/-- One field to a line. -/
def InfoReply.text (reply : InfoReply) : Str :=
  reply.fields.flatMap fun field => field.1 ++ ':' :: field.2 ++ "\r\n".toList

/-- Whether the reply says that cluster mode is enabled. -/
def InfoReply.SaysEnabled (reply : InfoReply) : Prop :=
  ("cluster_enabled".toList, "1".toList) ∈ reply.fields

instance (reply : InfoReply) : Decidable reply.SaysEnabled :=
  inferInstanceAs (Decidable (_ ∈ _))

inductive NodeFlag where
  | myself | master | slave | pfail | fail | handshake | noaddr | nofailover | noflags
  deriving DecidableEq, Repr

def NodeFlag.text : NodeFlag → Str
  | .myself => "myself".toList
  | .master => "master".toList
  | .slave => "slave".toList
  | .pfail => "fail?".toList
  | .fail => "fail".toList
  | .handshake => "handshake".toList
  | .noaddr => "noaddr".toList
  | .nofailover => "nofailover".toList
  | .noflags => "noflags".toList

abbrev Word := { text : Str // IsWord text }

/-- What a node holds, or is about to give away or to take over. -/
inductive SlotEntry where
  | single (slot : Nat)
  | range (first last : Nat)
  | migrating (slot : Nat) (node : Word)
  | importing (slot : Nat) (node : Word)

def SlotEntry.text : SlotEntry → Str
  | .single slot => decimal slot
  | .range first last => decimal first ++ '-' :: decimal last
  | .migrating slot node => '[' :: decimal slot ++ "->-".toList ++ node.1 ++ [']']
  | .importing slot node => '[' :: decimal slot ++ "-<-".toList ++ node.1 ++ [']']

/-- Whether an entry says which slots the node holds. -/
def SlotEntry.held : SlotEntry → Bool
  | .single _ | .range .. => true
  | .migrating .. | .importing .. => false

/-- A node as `CLUSTER NODES` lists it. -/
structure NodeRow where
  id : Word
  addr : Word
  addr_free : '@' ∉ addr.1
  busPort : Nat
  hostname : Option Word
  flags : List NodeFlag
  flags_ne : flags ≠ []
  /-- The node that this one replicates. -/
  primary : Option Word
  pingSent : Nat
  pongRecv : Nat
  configEpoch : Nat
  connected : Bool
  slots : List SlotEntry

namespace NodeRow

def flagsText (row : NodeRow) : Str :=
  [','].intercalate (row.flags.map NodeFlag.text)

def linkState (row : NodeRow) : Str :=
  if row.connected then "connected".toList else "disconnected".toList

/-- The address, the port of the cluster bus and a hostname. -/
def endpoint (row : NodeRow) : Str :=
  row.addr.1 ++ '@' :: decimal row.busPort ++
    (row.hostname.map fun name => ',' :: name.1).getD []

def primaryText (row : NodeRow) : Str :=
  match row.primary with
  | some node => node.1
  | none => "-".toList

def words (row : NodeRow) : List Str :=
  [row.id.1, row.endpoint, row.flagsText, row.primaryText,
    decimal row.pingSent, decimal row.pongRecv, decimal row.configEpoch, row.linkState] ++
    row.slots.map SlotEntry.text

def text (row : NodeRow) : Str :=
  [' '].intercalate row.words

/-- What there is to show of a node. -/
def node (row : NodeRow) : ClusterNode :=
  { id := row.id.1
    addr := row.addr.1
    flags := row.flagsText
    master := .master ∈ row.flags
    linkState := row.linkState
    slots := (row.slots.filter SlotEntry.held).map SlotEntry.text
    myself := .myself ∈ row.flags }

end NodeRow

/-- One node to a line. -/
def nodesText (rows : List NodeRow) : Str :=
  rows.flatMap fun row => row.text ++ ['\n']

/-! ## Reading `CLUSTER INFO` back -/

namespace InfoReply

variable (reply : InfoReply)

/-- A field that is written on a line is read from it. -/
theorem readInfoLine_eq {field : Str × Str} (member : field ∈ reply.fields)
    (topology : ClusterTopology) :
    readInfoLine topology (field.1 ++ ':' :: field.2) = readInfoField topology field := by
  rcases reply.isWord field member with ⟨nameWord, free, valueWord⟩
  have unspaced : Unspaced (field.1 ++ ':' :: field.2) := by
    simp [nameWord.2, valueWord.2, isWhitespace]
  have fresh : ¬":".toList <:+: field.1 := by
    simpa [List.singleton_infix_iff] using free
  have split : splitOnce (field.1 ++ ':' :: field.2) ":".toList = some field := by
    rw [← splitOnce_append field.2 (by decide) fresh]
    simp
  rw [readInfoLine, unspaced.trim_eq, split]

/-- The fields are read one by one. -/
theorem parseClusterInfo_text :
    parseClusterInfo reply.text = run readInfoField .empty reply.fields := by
  have written : reply.text =
      (reply.fields.map fun field => field.1 ++ ':' :: field.2).flatMap
        fun line => line ++ ['\r', '\n'] := by
    simp [text, List.flatMap_map]
  have free : ∀ line ∈ reply.fields.map fun field => field.1 ++ ':' :: field.2, '\n' ∉ line := by
    intro line memberLine
    rcases List.mem_map.mp memberLine with ⟨field, member, rfl⟩
    rcases reply.isWord field member with ⟨nameWord, _, valueWord⟩
    have space : isWhitespace '\n' = true := by decide
    simp [nameWord.2.not_mem space, valueWord.2.not_mem space]
  rw [parseClusterInfo, written, lines_flatMap_crlf free, List.foldl_map, run]
  exact List.foldl_ext _ _ _ fun topology field member => reply.readInfoLine_eq member topology

/-- A field changes no part of the topology but the one it names. -/
theorem readInfoField_frame (topology : ClusterTopology) (name value : Str) :
    (name ≠ "cluster_enabled".toList →
        (readInfoField topology (name, value)).enabled = topology.enabled) ∧
      (name ≠ "cluster_state".toList →
        (readInfoField topology (name, value)).state = topology.state) ∧
      (name ≠ "cluster_slots_assigned".toList →
        (readInfoField topology (name, value)).slotsAssigned = topology.slotsAssigned) ∧
      (name ≠ "cluster_known_nodes".toList →
        (readInfoField topology (name, value)).knownNodes = topology.knownNodes) ∧
      (name ≠ "cluster_size".toList →
        (readInfoField topology (name, value)).size = topology.size) := by
  refine ⟨?_, ?_, ?_, ?_, ?_⟩
  all_goals
    intro different
    simp only [readInfoField, if_neg different]
    split_ifs <;> rfl

/-- What a field alone decides is what is read from that field. -/
theorem part_eq {β : Type} {part : ClusterTopology → β} {name value : Str} {result : β}
    (member : (name, value) ∈ reply.fields)
    (assigned : ∀ topology, part (readInfoField topology (name, value)) = result)
    (others : ∀ topology other text, other ≠ name →
      part (readInfoField topology (other, text)) = part topology) :
    part (parseClusterInfo reply.text) = result := by
  rcases List.append_of_mem member with ⟨front, back, split⟩
  have kept : ∀ later ∈ back, ∀ topology,
      part (readInfoField topology later) = part topology := by
    intro later memberLater topology
    have nodup := reply.nodup
    rw [split, List.map_append, List.map_cons] at nodup
    apply others
    intro same
    have again : name ∈ back.map Prod.fst := same ▸ List.mem_map_of_mem memberLater
    exact (List.nodup_cons.mp (List.nodup_append.mp nodup).2.1).1 again
  rw [parseClusterInfo_text, split]
  exact run_assigned part assigned kept _

theorem state_eq : (parseClusterInfo reply.text).state = reply.state := by
  have word := (reply.isWord _ reply.state_mem).2.2.2
  apply reply.part_eq reply.state_mem
  · intro topology
    simp [readInfoField, word.trim_eq]
  · exact fun topology other text => (readInfoField_frame topology other text).2.1

theorem parseCounter_decimal {number : Nat} (fits : number < 2 ^ 64) :
    parseCounter (decimal number) = number := by
  rw [parseCounter, (unspaced_decimal number).trim_eq,
    parseUnsigned_decimal (Nat.le_sub_one_of_lt fits)]
  rfl

theorem slotsAssigned_eq : (parseClusterInfo reply.text).slotsAssigned = reply.slotsAssigned := by
  apply reply.part_eq reply.slotsAssigned_mem
  · intro topology
    simp [readInfoField, parseCounter_decimal reply.slotsAssigned_lt]
  · exact fun topology other text => (readInfoField_frame topology other text).2.2.1

theorem knownNodes_eq : (parseClusterInfo reply.text).knownNodes = reply.knownNodes := by
  apply reply.part_eq reply.knownNodes_mem
  · intro topology
    simp [readInfoField, parseCounter_decimal reply.knownNodes_lt]
  · exact fun topology other text => (readInfoField_frame topology other text).2.2.2.1

theorem size_eq : (parseClusterInfo reply.text).size = reply.size := by
  apply reply.part_eq reply.size_mem
  · intro topology
    simp [readInfoField, parseCounter_decimal reply.size_lt]
  · exact fun topology other text => (readInfoField_frame topology other text).2.2.2.2

theorem nodes_eq : (parseClusterInfo reply.text).nodes = [] := by
  rw [parseClusterInfo_text]
  apply run_kept ClusterTopology.nodes
  intro field _ topology
  simp only [readInfoField]
  split_ifs <;> rfl

/-- Cluster mode counts as enabled only where the reply says so. -/
theorem enabled_eq :
    (parseClusterInfo reply.text).enabled = decide reply.SaysEnabled := by
  by_cases named : "cluster_enabled".toList ∈ reply.fields.map Prod.fst
  · rcases List.mem_map.mp named with ⟨⟨name, value⟩, member, rfl⟩
    have word := (reply.isWord _ member).2.2.2
    have read : (parseClusterInfo reply.text).enabled = decide (value = "1".toList) := by
      apply reply.part_eq member
      · intro topology
        simp [readInfoField, word.trim_eq]
      · exact fun topology other text => (readInfoField_frame topology other text).1
    rw [read, decide_eq_decide]
    constructor
    · rintro rfl
      exact member
    · intro enabled
      have same := List.inj_on_of_nodup_map reply.nodup enabled member rfl
      exact (congrArg Prod.snd same).symm
  · have absent : ¬reply.SaysEnabled := fun enabled => named (List.mem_map_of_mem enabled)
    rw [parseClusterInfo_text, decide_eq_false absent]
    apply run_kept ClusterTopology.enabled
    intro field member topology
    apply (readInfoField_frame topology field.1 field.2).1
    exact fun same => named (same ▸ List.mem_map_of_mem member)

/-- Everything in the reply is read as it was written. -/
theorem parseClusterInfo_eq :
    parseClusterInfo reply.text =
      { enabled := decide reply.SaysEnabled
        state := reply.state
        slotsAssigned := reply.slotsAssigned
        knownNodes := reply.knownNodes
        size := reply.size
        nodes := [] } := by
  rw [← enabled_eq, ← state_eq, ← slotsAssigned_eq, ← knownNodes_eq, ← size_eq, ← nodes_eq]

end InfoReply

/-! ## Reading `CLUSTER NODES` back -/

theorem NodeFlag.isWord_text (flag : NodeFlag) : IsWord flag.text := by
  cases flag <;> decide

theorem SlotEntry.isWord_text (entry : SlotEntry) : IsWord entry.text := by
  cases entry with
  | single slot => exact isWord_decimal slot
  | range first last => exact (isWord_decimal first).append (by simp [isWhitespace])
  | migrating slot node => simp [IsWord, SlotEntry.text, isWhitespace, node.2.2]
  | importing slot node => simp [IsWord, SlotEntry.text, isWhitespace, node.2.2]

/-- Only migrations begin with a bracket. -/
theorem SlotEntry.held_iff (entry : SlotEntry) :
    entry.held = true ↔ entry.text.head? ≠ some '[' := by
  have digits (slot : Nat) : (decimal slot).head? ≠ some '[' := by
    intro bracket
    exact not_mem_decimal (by decide) (List.mem_of_head? bracket)
  cases entry with
  | single slot => simp [SlotEntry.held, SlotEntry.text, digits]
  | range first last =>
      simp [SlotEntry.held, SlotEntry.text, List.head?_append_of_ne_nil _ (decimal_ne_nil first),
        digits]
  | migrating => simp [SlotEntry.held, SlotEntry.text]
  | importing => simp [SlotEntry.held, SlotEntry.text]

namespace NodeRow

variable (row : NodeRow)

theorem isWord_endpoint : IsWord row.endpoint := by
  rw [endpoint, List.append_assoc]
  apply row.addr.2.append
  cases row.hostname with
  | none => simp [isWhitespace]
  | some name => simp [isWhitespace, name.2.2]

theorem isWord_flagsText : IsWord row.flagsText := by
  constructor
  · cases flags : row.flags with
    | nil => exact absurd flags row.flags_ne
    | cons flag rest => simp [flagsText, flags, intercalate_cons, flag.isWord_text.1]
  · apply unspaced_intercalate (by decide)
    intro piece member
    rcases List.mem_map.mp member with ⟨flag, _, rfl⟩
    exact flag.isWord_text.2

theorem isWord_words : ∀ word ∈ row.words, IsWord word := by
  have primary : IsWord row.primaryText := by
    rw [primaryText]
    cases row.primary with
    | none => decide
    | some node => exact node.2
  have link : IsWord row.linkState := by
    rw [linkState]
    split <;> decide
  simp [words, row.id.2, isWord_endpoint, isWord_flagsText, isWord_decimal, primary, link,
    SlotEntry.isWord_text]

theorem addr_endpoint : row.endpoint.takeWhile (fun c => c ≠ '@') = row.addr.1 := by
  have front : ∀ c ∈ row.addr.1, decide (c ≠ '@') = true := by
    intro c member
    simpa using ne_of_mem_of_not_mem member row.addr_free
  rw [endpoint, List.append_assoc, List.takeWhile_append_of_pos front]
  simp

/-- The flags hold the name of one of these exactly if they hold that flag. -/
theorem infix_flagsText_iff {flag : NodeFlag} (name : flag = .master ∨ flag = .myself) :
    flag.text <:+: row.flagsText ↔ flag ∈ row.flags := by
  have fresh : ',' ∉ flag.text := by cases flag <;> decide
  have single : ∀ other, flag.text <:+: other.text → other = flag := by
    intro other
    rcases name with rfl | rfl <;> cases other <;> decide
  rw [flagsText, infix_intercalate_iff fresh flag.isWord_text.1]
  constructor
  · rintro ⟨piece, member, occurs⟩
    rcases List.mem_map.mp member with ⟨other, held, rfl⟩
    rwa [← single other occurs]
  · intro held
    exact ⟨flag.text, List.mem_map_of_mem held, List.infix_rfl⟩

theorem parseNodeRow_text : parseNodeRow row.text = some row.node := by
  have master := row.infix_flagsText_iff (.inl rfl)
  have myself := row.infix_flagsText_iff (.inr rfl)
  have slots : (row.slots.map SlotEntry.text).filter (fun slot => slot.head? ≠ some '[') =
      (row.slots.filter SlotEntry.held).map SlotEntry.text := by
    rw [List.filter_map]
    congr 1
    apply List.filter_congr
    intro entry _
    rw [Bool.eq_iff_iff, entry.held_iff]
    simp
  rw [parseNodeRow, text, splitAsciiWhitespace_intercalate row.isWord_words, words]
  simp only [List.cons_append, List.nil_append, node, addr_endpoint, slots]
  rw [← decide_eq_decide.mpr master, ← decide_eq_decide.mpr myself]
  rfl

theorem text_free {c : Char} (space : isWhitespace c = true) (notBlank : c ≠ ' ') :
    c ∉ row.text := by
  intro member
  rcases mem_intercalate member with rfl | ⟨word, memberWord, inside⟩
  · exact notBlank rfl
  · exact (row.isWord_words word memberWord).2.not_mem space inside

theorem trim_text_ne : trim row.text ≠ [] := by
  rcases List.exists_mem_of_ne_nil _ row.id.2.1 with ⟨c, member⟩
  have visible := row.id.2.2 c member
  have written : c ∈ row.text := by
    rw [text, words, List.cons_append, intercalate_cons]
    exact List.mem_append_left _ member
  exact List.ne_nil_of_mem (mem_trim written visible)

end NodeRow

/-- Every row is read as its node, in order. -/
theorem parseClusterNodes_nodesText (rows : List NodeRow) :
    parseClusterNodes (nodesText rows) = rows.map NodeRow.node := by
  have written : nodesText rows = (rows.map NodeRow.text).flatMap fun line => line ++ ['\n'] := by
    simp [nodesText, List.flatMap_map]
  have free : ∀ line ∈ rows.map NodeRow.text, '\n' ∉ line ∧ '\r' ∉ line := by
    intro line memberLine
    rcases List.mem_map.mp memberLine with ⟨row, _, rfl⟩
    exact ⟨row.text_free (by decide) (by decide), row.text_free (by decide) (by decide)⟩
  have shown : ∀ line ∈ rows.map NodeRow.text, decide (trim line ≠ []) = true := by
    intro line memberLine
    rcases List.mem_map.mp memberLine with ⟨row, _, rfl⟩
    exact decide_eq_true row.trim_text_ne
  rw [parseClusterNodes, written, lines_flatMap_lf free, List.filter_eq_self.mpr shown,
    List.filterMap_map]
  have each : parseNodeRow ∘ NodeRow.text = some ∘ NodeRow.node := by
    funext row
    exact row.parseNodeRow_text
  rw [each, List.filterMap_eq_map]

/-! ## The topology that is shown -/

/-- The server offers `CLUSTER` and answers with these replies. -/
structure Conn.Reports (conn : Conn) (reply : InfoReply) (rows : List NodeRow) : Prop where
  lawful : conn.client.api.Lawful
  offers : conn.capabilities.has .cluster
  info : ∃ value, conn.client.custom .cluster [.string "INFO".toList] = .ok value ∧
    conn.client.api.displayString value = reply.text
  nodes : ∃ value, conn.client.custom .cluster [.string "NODES".toList] = .ok value ∧
    conn.client.api.displayString value = nodesText rows

/-- All that the replies say is shown. -/
def Conn.RecoversTopology (conn : Conn) (reply : InfoReply) (rows : List NodeRow) : Prop :=
  conn.clusterTopology = .ok
    { enabled := true
      state := reply.state
      slotsAssigned := reply.slotsAssigned
      knownNodes := reply.knownNodes
      size := reply.size
      nodes := rows.map NodeRow.node }

section Topology

variable {conn : Conn} {reply : InfoReply} {rows : List NodeRow}

/-- Everything is read as it was written, but the nodes only where the reply says that
cluster mode is enabled. -/
theorem Conn.Reports.clusterTopology_eq (reports : conn.Reports reply rows) :
    conn.clusterTopology = .ok
      { enabled := decide reply.SaysEnabled
        state := reply.state
        slotsAssigned := reply.slotsAssigned
        knownNodes := reply.knownNodes
        size := reply.size
        nodes := if reply.SaysEnabled then rows.map NodeRow.node else [] } := by
  rcases reports.info with ⟨info, infoAnswer, infoText⟩
  rcases reports.nodes with ⟨nodes, nodesAnswer, nodesText⟩
  have allowed : readOnlyCommand conn.client.api .cluster [.string "INFO".toList] ∧
      readOnlyCommand conn.client.api .cluster [.string "NODES".toList] := by
    simp [readOnlyCommand, reports.lawful.asString_string]
  have infoRead : conn.cmd .cluster [.string "INFO".toList] = .ok info := by
    rw [cmd_eq_execute allowed.1, execute, infoAnswer]
    rfl
  have nodesRead : conn.cmd .cluster [.string "NODES".toList] = .ok nodes := by
    rw [cmd_eq_execute allowed.2, execute, nodesAnswer]
    rfl
  rw [clusterTopology, if_neg (by simp [reports.offers]), infoRead]
  change (if (parseClusterInfo (conn.client.api.displayString info)).enabled then _ else _) = _
  rw [infoText, nodesRead, reply.parseClusterInfo_eq]
  by_cases enabled : reply.SaysEnabled
  · simp [enabled, nodesText, parseClusterNodes_nodesText]
  · simp [enabled]

/-- The topology is recovered exactly from replies that say that cluster mode is
enabled. -/
theorem Conn.Reports.recoversTopology_iff (reports : conn.Reports reply rows) :
    conn.RecoversTopology reply rows ↔ reply.SaysEnabled := by
  rw [Conn.RecoversTopology, reports.clusterTopology_eq]
  by_cases enabled : reply.SaysEnabled
  · simp [enabled]
  · simp [enabled]

/-- Without a line that says so, the cluster is taken for a standalone server, whatever
its state and its nodes are. -/
theorem topology_never_recovered (reports : conn.Reports reply rows)
    (unsaid : "cluster_enabled".toList ∉ reply.fields.map Prod.fst) :
    ¬conn.RecoversTopology reply rows ∧
      conn.clusterTopology = .ok
        { enabled := false
          state := reply.state
          slotsAssigned := reply.slotsAssigned
          knownNodes := reply.knownNodes
          size := reply.size
          nodes := [] } := by
  have absent : ¬reply.SaysEnabled := by
    intro member
    exact unsaid (List.mem_map_of_mem member)
  refine ⟨fun recovers => absent (reports.recoversTopology_iff.mp recovers), ?_⟩
  rw [reports.clusterTopology_eq]
  simp [absent]

/-- A connection to a server that answers with these replies. -/
def Conn.reporting (reply : InfoReply) (rows : List NodeRow) : Conn :=
  { client :=
      { api := plainApi
        isClustered := true
        custom := fun cmd args =>
          match cmd, args with
          | .cluster, [.string part] =>
              .ok (.string (if part = "INFO".toList then reply.text else nodesText rows))
          | _, _ => .error badCommand
        buffer := fun _ _ => .ok ()
        tryAll := fun _ => [] }
    capabilities := { get := fun _ => .available } }

theorem Conn.reports_reporting (reply : InfoReply) (rows : List NodeRow) :
    (Conn.reporting reply rows).Reports reply rows where
  lawful := plainApi_lawful
  offers := rfl
  info := ⟨.string reply.text, rfl, rfl⟩
  nodes := ⟨.string (nodesText rows), rfl, rfl⟩

/-- A cluster of one node. -/
def oneNodeInfo : InfoReply where
  fields :=
    [("cluster_state".toList, "ok".toList),
      ("cluster_slots_assigned".toList, decimal 16384),
      ("cluster_slots_ok".toList, decimal 16384),
      ("cluster_known_nodes".toList, decimal 1),
      ("cluster_size".toList, decimal 1),
      ("cluster_current_epoch".toList, decimal 3)]
  state := "ok".toList
  slotsAssigned := 16384
  knownNodes := 1
  size := 1
  nodup := by decide
  isWord := by decide
  state_mem := by simp
  slotsAssigned_mem := by simp
  knownNodes_mem := by simp
  size_mem := by simp
  slotsAssigned_lt := by decide
  knownNodes_lt := by decide
  size_lt := by decide

def oneNode : NodeRow where
  id := ⟨"e7d1eec".toList, by decide⟩
  addr := ⟨"127.0.0.1:30001".toList, by decide⟩
  addr_free := by decide
  busPort := 31001
  hostname := some ⟨"node1.local".toList, by decide⟩
  flags := [.myself, .master]
  flags_ne := by decide
  primary := none
  pingSent := 0
  pongRecv := 0
  configEpoch := 1
  connected := true
  slots := [.range 0 16383, .migrating 77 ⟨"07c37df".toList, by decide⟩]

theorem one_node_taken_for_standalone :
    ¬(Conn.reporting oneNodeInfo [oneNode]).RecoversTopology oneNodeInfo [oneNode] ∧
      (Conn.reporting oneNodeInfo [oneNode]).clusterTopology = .ok
        { enabled := false
          state := "ok".toList
          slotsAssigned := 16384
          knownNodes := 1
          size := 1
          nodes := [] } :=
  topology_never_recovered (Conn.reports_reporting oneNodeInfo [oneNode]) (by decide)

/-- The replies of a healthy cluster, none of whose nodes is shown. -/
theorem healthy_cluster_not_recovered :
    ∃ conn reply rows, Conn.Reports conn reply rows ∧
      "cluster_enabled".toList ∉ reply.fields.map Prod.fst ∧
      ¬conn.RecoversTopology reply rows := by
  have reports := Conn.reports_reporting oneNodeInfo [oneNode]
  refine ⟨_, _, _, reports, by decide, ?_⟩
  rw [reports.recoversTopology_iff]
  decide

end Topology

end Keylens.Connection
