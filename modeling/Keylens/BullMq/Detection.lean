import Keylens.BullMq.Lens
import Keylens.Backend.Scan
import Mathlib.Data.List.Destutter
import Mathlib.Data.List.Sort

/-!
# Finding queues

Queues are found by scanning for the meta keys of a prefix.  The scan ends early once
there are enough names; they are counted as they come, although a scan may return a
key more than once.
-/

namespace Keylens.BullMq

open Keylens.Library Keylens.Connection Keylens.Backend

/-- Detection walks at most this many pages. -/
def maxDetectPages : Nat := 40

/-- Cap on queues surfaced by a single detection pass. -/
def maxQueues : Nat := 500

namespace BullMqLens

/-- Keys examined per page. -/
def scanCount : Nat := 4000

/-- A scan for meta keys; the type filter is only passed where it is supported. -/
def metaScanner (lens : BullMqLens) (scene : Scene) : KeyScanner :=
  let pattern := lens.prefix' ++ ":*:meta".toList
  let typeFilter :=
    if scene.conn.capabilities.has .scanTypeFilter then some "hash".toList else none
  scene.keyScanner (some pattern) scanCount typeFilter

/-- The loop of `scan_meta_keys`, with the pages that may still be asked for and the
names so far. -/
def collectNames (lens : BullMqLens) :
    Nat → List Str → KeyScanner → Result (List Str) × KeyScanner
  | 0, names, scanner => (.ok names, scanner)
  | left + 1, names, scanner =>
      match scanner.nextPage with
      | (.ok (some keys), scanner) =>
          let names := names ++ keys.filterMap (queueNameFromMetaKey lens.prefix')
          if maxQueues ≤ names.length then (.ok names, scanner)
          else collectNames lens left names scanner
      | (.ok none, scanner) => (.ok names, scanner)
      | (.error error, scanner) => (.error error, scanner)

/-- Sorted, without repetitions and cut at the cap. -/
def listed (names : List Str) : List Str :=
  ((names.insertionSort (· ≤ ·)).destutter (· ≠ ·)).take maxQueues

/-- Candidate queues, with what is left of the scan. -/
def scanMetaKeys (lens : BullMqLens) (scene : Scene) : Result (List Str) × KeyScanner :=
  let (names, scanner) := lens.collectNames maxDetectPages [] (lens.metaScanner scene)
  (names.map listed, scanner)

/-! ## The names that are listed -/

theorem destutter_eq (names : List Str) :
    (names.insertionSort (· ≤ ·)).destutter (· ≠ ·) = (names.insertionSort (· ≤ ·)).dedup :=
  List.Pairwise.destutter_eq_dedup (List.pairwise_insertionSort (· ≤ ·) names)

theorem listed_eq (names : List Str) :
    listed names = (names.insertionSort (· ≤ ·)).dedup.take maxQueues := by
  rw [listed, destutter_eq]

theorem length_dedup_insertionSort (names : List Str) :
    (names.insertionSort (· ≤ ·)).dedup.length = names.dedup.length :=
  (List.perm_insertionSort (· ≤ ·) names).dedup.length_eq

theorem increasing_listed (names : List Str) : (listed names).Pairwise (· < ·) := by
  have sorted := List.pairwise_insertionSort (· ≤ ·) names
  have distinct := List.nodup_dedup (names.insertionSort (· ≤ ·))
  rw [listed_eq]
  apply List.Pairwise.sublist (List.take_sublist ..)
  exact ((sorted.sublist (List.dedup_sublist _)).and distinct).imp fun both =>
    lt_of_le_of_ne both.1 both.2

theorem length_listed (names : List Str) :
    (listed names).length = min maxQueues names.dedup.length := by
  rw [listed_eq, List.length_take, length_dedup_insertionSort]

theorem mem_of_mem_listed {names : List Str} {name : Str} (member : name ∈ listed names) :
    name ∈ names := by
  rw [listed_eq] at member
  have sorted := List.mem_dedup.mp (List.mem_of_mem_take member)
  exact (List.mem_insertionSort (· ≤ ·)).mp sorted

/-- Below the cap no name is left out. -/
theorem mem_listed {names : List Str} (below : (listed names).length < maxQueues) {name : Str}
    (member : name ∈ names) : name ∈ listed names := by
  rw [length_listed] at below
  rw [listed_eq, List.take_of_length_le (by rw [length_dedup_insertionSort]; omega)]
  exact List.mem_dedup.mpr ((List.mem_insertionSort (· ≤ ·)).mpr member)

/-! ## The pages that are read -/

/-- The names of all meta keys on some pages, as often as they are there. -/
def metaNames (prefix' : Str) (pages : List (List Str)) : List Str :=
  pages.flatMap fun keys => keys.filterMap (queueNameFromMetaKey prefix')

theorem mem_metaNames {prefix' name : Str} {pages : List (List Str)} :
    name ∈ metaNames prefix' pages ↔
      ∃ keys ∈ pages, ∃ key ∈ keys, queueNameFromMetaKey prefix' key = some name := by
  simp only [metaNames, List.mem_flatMap, List.mem_filterMap]

variable {lens : BullMqLens} {scene : Scene} {pages : List (List Str)}

/-- How far the loop reads some pages: it goes on while the names are few. -/
structure ReadsTo (prefix' : Str) (left : Nat) (names : List Str) (pages : List (List Str))
    (read : Nat) : Prop where
  le_left : read ≤ left
  le_length : read ≤ pages.length
  goesOn : ∀ n, 0 < n → n < read →
    (names ++ metaNames prefix' (pages.take n)).length < maxQueues
  stops : read = left ∨ read = pages.length ∨
    maxQueues ≤ (names ++ metaNames prefix' (pages.take read)).length

/-- Pages without errors are read in order, up to some page. -/
theorem collectNames_pages (lens : BullMqLens) (left : Nat) (names : List Str)
    (pages : List (List Str)) :
    ∃ read, ReadsTo lens.prefix' left names pages read ∧
      lens.collectNames left names ⟨pages.map .ok⟩ =
        (.ok (names ++ metaNames lens.prefix' (pages.take read)), ⟨(pages.drop read).map .ok⟩) := by
  induction left generalizing names pages with
  | zero =>
      refine ⟨0, ⟨le_rfl, Nat.zero_le _, fun _ _ before => absurd before (Nat.not_lt_zero _),
        .inl rfl⟩, ?_⟩
      simp [collectNames, metaNames]
  | succ left ih =>
      cases pages with
      | nil =>
          refine ⟨0, ⟨Nat.zero_le _, le_rfl, fun _ _ before => absurd before (Nat.not_lt_zero _),
            .inr (.inl rfl)⟩, ?_⟩
          simp [collectNames, KeyScanner.nextPage, metaNames]
      | cons keys pages =>
          have first (n : Nat) : names ++ metaNames lens.prefix' ((keys :: pages).take (n + 1)) =
              (names ++ keys.filterMap (queueNameFromMetaKey lens.prefix')) ++
                metaNames lens.prefix' (pages.take n) := by
            rw [List.take_succ_cons, metaNames, List.flatMap_cons, List.append_assoc]
            rfl
          rw [List.map_cons, collectNames]
          dsimp only [KeyScanner.nextPage]
          by_cases enough : maxQueues ≤
              (names ++ keys.filterMap (queueNameFromMetaKey lens.prefix')).length
          · refine ⟨1, ⟨Nat.le_add_left .., Nat.le_add_left .., fun n positive before => ?_,
              .inr (.inr ?_)⟩, ?_⟩
            · omega
            · rwa [first 0, List.take_zero, metaNames, List.flatMap_nil, List.append_nil]
            · rw [if_pos enough, first 0]
              simp [metaNames]
          · rcases ih (names ++ keys.filterMap (queueNameFromMetaKey lens.prefix')) pages with
              ⟨read, reads, collected⟩
            refine ⟨read + 1, ⟨Nat.succ_le_succ reads.le_left, Nat.succ_le_succ reads.le_length,
              fun n positive before => ?_, ?_⟩, ?_⟩
            · cases n with
              | zero => cases positive
              | succ n =>
                  rw [first n]
                  rcases Nat.eq_zero_or_pos n with rfl | later
                  · rw [List.take_zero, metaNames, List.flatMap_nil, List.append_nil]
                    exact Nat.not_le.mp enough
                  · exact reads.goesOn n later (Nat.lt_of_succ_lt_succ before)
            · rw [first read]
              rcases reads.stops with atLeft | atEnd | full
              · exact .inl (congrArg Nat.succ atLeft)
              · exact .inr (.inl (congrArg Nat.succ atEnd))
              · exact .inr (.inr full)
            · rw [if_neg enough, collected, first read, List.drop_succ_cons]

/-! ## What is found -/

/-- What a detection says of the queues there are: the names are sorted and within the
cap, and each is that of a meta key; below the cap they are those of all meta keys on
the pages read, which are all pages or as many as may be. -/
structure Discovers (prefix' : Str) (pages unread : List (List Str)) (names : List Str) :
    Prop where
  increasing : names.Pairwise (· < ·)
  atMost : names.length ≤ maxQueues
  scanned : ∀ name ∈ names, ∃ keys ∈ pages, ∃ key ∈ keys,
    queueNameFromMetaKey prefix' key = some name
  complete : names.length < maxQueues → ∃ read, pages = read ++ unread ∧
    (unread = [] ∨ read.length = maxDetectPages) ∧
    ∀ keys ∈ read, ∀ key ∈ keys, ∀ name,
      queueNameFromMetaKey prefix' key = some name → name ∈ names

/-- Wherever the meta keys on the first pages are enough, there are enough queues among
them. -/
def EnoughQueues (prefix' : Str) (pages : List (List Str)) : Prop :=
  ∀ n < maxDetectPages, n < pages.length →
    maxQueues ≤ (metaNames prefix' (pages.take n)).length →
    maxQueues ≤ (metaNames prefix' (pages.take n)).dedup.length

theorem length_dedup_take_le (prefix' : Str) (pages : List (List Str)) {few many : Nat}
    (more : few ≤ many) :
    (metaNames prefix' (pages.take few)).dedup.length ≤
      (metaNames prefix' (pages.take many)).dedup.length := by
  apply List.Subperm.length_le
  apply List.subperm_of_subset (List.nodup_dedup _)
  intro name member
  rw [List.mem_dedup, mem_metaNames] at member ⊢
  rcases member with ⟨keys, keysMem, found⟩
  exact ⟨keys, (List.take_prefix_take_left more).subset keysMem, found⟩

/-- What a detection over pages without errors lists. -/
theorem scanMetaKeys_pages (opened : lens.metaScanner scene = ⟨pages.map .ok⟩) :
    ∃ read, ReadsTo lens.prefix' maxDetectPages [] pages read ∧
      lens.scanMetaKeys scene = (.ok (listed (metaNames lens.prefix' (pages.take read))),
        ⟨(pages.drop read).map .ok⟩) := by
  rcases lens.collectNames_pages maxDetectPages [] pages with ⟨read, reads, collected⟩
  refine ⟨read, reads, ?_⟩
  rw [scanMetaKeys, opened, collected]
  rfl

section Pages

variable {prefix' : Str} {read n : Nat}

/-- Stopping at too many keys of too few queues breaks the word. -/
theorem not_discovers (reads : ReadsTo prefix' maxDetectPages [] pages read)
    (early : n < maxDetectPages) (inside : n < pages.length)
    (enough : maxQueues ≤ (metaNames prefix' (pages.take n)).length)
    (few : (metaNames prefix' (pages.take n)).dedup.length < maxQueues) :
    ¬Discovers prefix' pages (pages.drop read) (listed (metaNames prefix' (pages.take read))) := by
  intro discovers
  have stopped : read ≤ n := by
    by_contra later
    have positive : 0 < n := by
      rcases Nat.eq_zero_or_pos n with rfl | positive
      · rw [List.take_zero] at enough
        exact absurd enough (show ¬maxQueues ≤ 0 by decide)
      · exact positive
    exact absurd enough (Nat.not_le.mpr (reads.goesOn n positive (Nat.not_le.mp later)))
  have below : (listed (metaNames prefix' (pages.take read))).length < maxQueues := by
    have fewer := length_dedup_take_le prefix' pages stopped
    rw [length_listed]
    omega
  rcases discovers.complete below with ⟨front, split, all, _⟩
  have sizes := congrArg List.length split
  rw [List.length_append, List.length_drop] at sizes
  rcases all with none | most
  · rw [List.drop_eq_nil_iff] at none
    omega
  · omega

theorem discovers_of_enoughQueues (reads : ReadsTo prefix' maxDetectPages [] pages read)
    (enoughQueues : EnoughQueues prefix' pages) :
    Discovers prefix' pages (pages.drop read) (listed (metaNames prefix' (pages.take read))) where
  increasing := increasing_listed _
  atMost := by
    rw [length_listed]
    exact Nat.min_le_left ..
  scanned name member := by
    rcases mem_metaNames.mp (mem_of_mem_listed member) with ⟨keys, keysMem, found⟩
    exact ⟨keys, List.mem_of_mem_take keysMem, found⟩
  complete below := by
    refine ⟨pages.take read, (List.take_append_drop ..).symm, ?_, ?_⟩
    · rw [List.length_take_of_le reads.le_length, List.drop_eq_nil_iff]
      rcases reads.stops with most | all | full
      · exact .inr most
      · exact .inl all.ge
      · by_contra stopped
        rcases not_or.mp stopped with ⟨unread, notMost⟩
        have early : read < maxDetectPages := Nat.lt_of_le_of_ne reads.le_left notMost
        have queues := enoughQueues read early (Nat.not_le.mp unread) full
        rw [length_listed] at below
        omega
    · intro keys keysMem key keyMem name found
      exact mem_listed below (mem_metaNames.mpr ⟨keys, keysMem, key, keyMem, found⟩)

end Pages

/-- Names are counted with their repetitions and listed without: a detection keeps its
word exactly if there is no page up to which the meta keys are enough and the queues
are not. -/
theorem discovers_iff (opened : lens.metaScanner scene = ⟨pages.map .ok⟩) :
    ∃ names unread, lens.scanMetaKeys scene = (.ok names, ⟨unread.map .ok⟩) ∧
      (Discovers lens.prefix' pages unread names ↔ EnoughQueues lens.prefix' pages) := by
  rcases scanMetaKeys_pages opened with ⟨read, reads, scanned⟩
  refine ⟨_, _, scanned, ?_, discovers_of_enoughQueues reads⟩
  intro discovers n early inside enough
  by_contra few
  exact not_discovers reads early inside enough (Nat.not_le.mp few) discovers

/-- A server that answers a scan with some pages. -/
def paging (pages : List (List Str)) : Scene where
  conn := Conn.answering plainApi plainWire (fun _ => none) {}
  keyScanner _ _ _ := ⟨pages.map .ok⟩

theorem two_queues_discovered :
    let lens : BullMqLens := { prefix' := "bull".toList }
    let pages := [["bull:b:meta".toList, "bull:a:meta".toList], ["bull:b:meta".toList]]
    ∃ names unread, lens.scanMetaKeys (paging pages) = (.ok names, ⟨unread.map .ok⟩) ∧
      Discovers lens.prefix' pages unread names := by
  intro lens pages
  have opened : lens.metaScanner (paging pages) = ⟨pages.map .ok⟩ := rfl
  rcases discovers_iff opened with ⟨names, unread, scanned, discovers⟩
  refine ⟨names, unread, scanned, discovers.mpr ?_⟩
  intro n _ inside
  revert n
  decide

/-- One key on a page five hundred times, and another on the page after it. -/
theorem repeated_key_hides_queue :
    let lens : BullMqLens := { prefix' := "bull".toList }
    let pages := [List.replicate 500 "bull:a:meta".toList, ["bull:b:meta".toList]]
    ∃ names unread, lens.scanMetaKeys (paging pages) = (.ok names, ⟨unread.map .ok⟩) ∧
      ¬Discovers lens.prefix' pages unread names := by
  intro lens pages
  have opened : lens.metaScanner (paging pages) = ⟨pages.map .ok⟩ := rfl
  rcases scanMetaKeys_pages opened with ⟨read, reads, scanned⟩
  have names : metaNames lens.prefix' (pages.take 1) = List.replicate 500 "a".toList := by
    have named : queueNameFromMetaKey lens.prefix' "bull:a:meta".toList = some "a".toList := by
      decide
    change (List.replicate 500 "bull:a:meta".toList).filterMap _ ++ [] = _
    rw [List.filterMap_replicate_of_some named, List.append_nil]
  refine ⟨_, _, scanned, not_discovers (n := 1) reads (by decide) (by decide) ?_ ?_⟩
  · rw [names, List.length_replicate]
    exact le_rfl
  · rw [names, List.replicate_dedup (by decide)]
    decide

/-! ## Reading back what was scanned -/

/-- Every name that is collected comes from a key of the scan. -/
theorem mem_collectNames {left : Nat} {names all : List Str} {scanner rest : KeyScanner}
    (collected : lens.collectNames left names scanner = (.ok all, rest)) {name : Str}
    (member : name ∈ all) :
    name ∈ names ∨ ∃ keys, .ok keys ∈ scanner.pages ∧
      ∃ key ∈ keys, queueNameFromMetaKey lens.prefix' key = some name := by
  induction left generalizing names scanner with
  | zero =>
      cases collected
      exact .inl member
  | succ left ih =>
      rcases scanner with ⟨_ | ⟨page, pages⟩⟩
      · cases collected
        exact .inl member
      · cases page with
        | error source => cases collected
        | ok keys =>
            have onPage : name ∈ names ++ keys.filterMap (queueNameFromMetaKey lens.prefix') →
                name ∈ names ∨ ∃ others, .ok others ∈ .ok keys :: pages ∧
                  ∃ key ∈ others, queueNameFromMetaKey lens.prefix' key = some name := by
              intro position
              refine (List.mem_append.mp position).imp_right fun here => ?_
              exact ⟨keys, List.mem_cons_self .., List.mem_filterMap.mp here⟩
            rw [collectNames] at collected
            dsimp only [KeyScanner.nextPage] at collected
            split at collected
            next =>
                cases collected
                exact onPage member
            next =>
                rcases ih collected with before | ⟨others, later, found⟩
                · exact onPage before
                · exact .inr ⟨others, List.mem_cons_of_mem _ later, found⟩

/-- Naming a queue and forming its meta key undo each other, so a queue that detection
lists is read back under the key that was scanned. -/
theorem meta_keys_name_queues (lens : BullMqLens) :
    let metaOf (name : Str) := QueueKeys.meta' { prefix' := lens.prefix', name }
    (∀ name, name ≠ [] → queueNameFromMetaKey lens.prefix' (metaOf name) = some name) ∧
      (∀ key name, queueNameFromMetaKey lens.prefix' key = some name →
        name ≠ [] ∧ metaOf name = key) ∧
      ∀ scene names, (lens.scanMetaKeys scene).1 = .ok names → ∀ name ∈ names,
        ∃ keys, .ok keys ∈ (lens.metaScanner scene).pages ∧ ∃ key ∈ keys,
          queueNameFromMetaKey lens.prefix' key = some name ∧
            lens.metaCmd name =
              (.hmget, [.string key, .string "version".toList, .string "paused".toList]) := by
  intro metaOf
  refine ⟨?_, ?_, ?_⟩
  · intro name visible
    exact queueNameFromMetaKey_eq_some_iff.mpr ⟨visible, rfl⟩
  · intro key name
    exact queueNameFromMetaKey_eq_some_iff.mp
  · intro scene names scanned name member
    cases collected : lens.collectNames maxDetectPages [] (lens.metaScanner scene) with
    | mk result rest =>
        rw [scanMetaKeys, collected] at scanned
        cases result with
        | error error => cases scanned
        | ok all =>
            cases scanned
            rcases mem_collectNames collected (mem_of_mem_listed member) with
              none | ⟨keys, onPage, key, keyMem, found⟩
            · cases none
            · refine ⟨keys, onPage, key, keyMem, found, ?_⟩
              rw [← (queueNameFromMetaKey_eq_some_iff.mp found).2]
              rfl

/-- A name with colons, and with `:meta` in it. -/
theorem meta_keys_name_colons :
    queueNameFromMetaKey "bull".toList "bull:a:meta:b:meta".toList = some "a:meta:b".toList ∧
      QueueKeys.meta' { prefix' := "bull".toList, name := "a:meta:b".toList } =
        "bull:a:meta:b:meta".toList := by
  rcases meta_keys_name_queues { prefix' := "bull".toList } with ⟨named, keyed, _⟩
  have found := named "a:meta:b".toList (by decide)
  exact ⟨found, (keyed _ _ found).2⟩

end BullMqLens

end Keylens.BullMq
