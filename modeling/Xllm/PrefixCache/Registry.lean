import Xllm.PrefixCache.PrefixCache

/-!
# The registry of a prefix cache

The LRU list, the hash map, the id set and the counter describe one set of nodes. `Registered`
says so with the LRU list as the reference: a key finds exactly the node stamped with it, the id set
holds exactly the nodes' ids, and no two nodes hold one id. Relinking, adding and removing a node
keep it.
-/

namespace Xllm.Framework

open List

variable {Key : Type} [DecidableEq Key]

structure Registered (c : PrefixCache Key) : Prop where
  lookup : ∀ key node,
    c.cachedBlocks.lookup key = some node ↔ node ∈ c.lruLst ∧ node.hashValue = key
  byId : ∀ i, i ∈ c.blocksById ↔ ∃ node ∈ c.lruLst, node.id = i
  idsNodup : (c.lruLst.map Block.id).Nodup
  entries : c.cachedBlocks.entries.length = c.lruLst.length
  numBlocks : c.numBlocks = c.lruLst.length

namespace Registered

variable {c : PrefixCache Key} {node node' : Block Key}

theorem empty : Registered ({} : PrefixCache Key) where
  lookup := fun key node => by simp
  byId := fun i => by simp
  idsNodup := nodup_nil
  entries := rfl
  numBlocks := rfl

theorem nodup (h : Registered c) : c.lruLst.Nodup := List.Nodup.of_map _ h.idsNodup

theorem eq_of_hash (h : Registered c) (hn : node ∈ c.lruLst) (hn' : node' ∈ c.lruLst)
    (he : node.hashValue = node'.hashValue) : node = node' := by
  have h1 := (h.lookup node.hashValue node).mpr ⟨hn, rfl⟩
  have h2 := (h.lookup node.hashValue node').mpr ⟨hn', he.symm⟩
  rw [h1] at h2
  exact Option.some.inj h2

theorem eq_of_id (h : Registered c) (hn : node ∈ c.lruLst) (hn' : node' ∈ c.lruLst)
    (he : node.id = node'.id) : node = node' :=
  inj_on_of_nodup_map h.idsNodup hn hn' he

theorem card (h : Registered c) : c.blocksById.card = c.cachedBlocks.entries.length := by
  have hset : c.blocksById = (c.lruLst.map Block.id).toFinset := by
    ext i
    rw [h.byId, mem_toFinset, mem_map]
  rw [hset, toFinset_card_of_nodup h.idsNodup, length_map, h.entries]

theorem setNumEvictable (h : Registered c) (n : Nat) : Registered { c with numEvictable := n } :=
  ⟨h.lookup, h.byId, h.idsNodup, h.entries, h.numBlocks⟩

theorem relink (h : Registered c) {l : List (Block Key)} (p : c.lruLst.Perm l) :
    Registered { c with lruLst := l } where
  lookup := fun key node => by rw [h.lookup, p.mem_iff]
  byId := fun i => by rw [h.byId]; simp only [p.mem_iff]
  idsNodup := (p.map Block.id).nodup_iff.mp h.idsNodup
  entries := h.entries.trans p.length_eq
  numBlocks := h.numBlocks.trans p.length_eq

theorem add (h : Registered c) (hkey : c.cachedBlocks.lookup node.hashValue = none)
    (hid : node.id ∉ c.blocksById) :
    Registered { c with
      lruLst := node :: c.lruLst
      cachedBlocks := c.cachedBlocks.insert node.hashValue node
      blocksById := insert node.id c.blocksById
      numBlocks := c.numBlocks + 1 } where
  lookup := by
    intro key n
    by_cases hk : key = node.hashValue
    · subst hk
      rw [AList.lookup_insert, Option.some.injEq, mem_cons]
      constructor
      · rintro rfl; exact ⟨Or.inl rfl, rfl⟩
      · rintro ⟨rfl | hn, he⟩
        · rfl
        · have := (h.lookup _ n).mpr ⟨hn, he⟩
          rw [hkey] at this
          cases this
    · rw [AList.lookup_insert_ne hk, h.lookup, mem_cons]
      constructor
      · rintro ⟨hn, he⟩; exact ⟨Or.inr hn, he⟩
      · rintro ⟨rfl | hn, he⟩
        · exact absurd he.symm hk
        · exact ⟨hn, he⟩
  byId := by
    intro i
    simp only [Finset.mem_insert, h.byId, mem_cons, exists_eq_or_imp]
    exact or_congr_left ⟨Eq.symm, Eq.symm⟩
  idsNodup := by
    rw [map_cons, nodup_cons]
    refine ⟨fun hm => hid ?_, h.idsNodup⟩
    obtain ⟨n, hn, he⟩ := mem_map.mp hm
    exact (h.byId _).mpr ⟨n, hn, he⟩
  entries := by
    rw [AList.entries_insert_of_notMem (AList.lookup_eq_none.mp hkey), length_cons,
      length_cons, h.entries]
  numBlocks := by rw [length_cons, h.numBlocks]

theorem remove (h : Registered c) (hn : node ∈ c.lruLst) :
    Registered { c with
      lruLst := c.lruLst.erase node
      cachedBlocks := c.cachedBlocks.erase node.hashValue
      blocksById := c.blocksById.erase node.id
      numBlocks := c.numBlocks - 1 } where
  lookup := by
    intro key n
    rw [h.nodup.mem_erase_iff]
    by_cases hk : key = node.hashValue
    · subst hk
      rw [AList.lookup_erase]
      constructor
      · intro hf; exact nomatch hf
      · rintro ⟨⟨hne, hm⟩, he⟩
        exact absurd (h.eq_of_hash hm hn he) hne
    · rw [AList.lookup_erase_ne hk, h.lookup]
      constructor
      · rintro ⟨hm, he⟩
        refine ⟨⟨?_, hm⟩, he⟩
        rintro rfl
        exact hk he.symm
      · rintro ⟨⟨-, hm⟩, he⟩; exact ⟨hm, he⟩
  byId := by
    intro i
    simp only [Finset.mem_erase, h.byId, h.nodup.mem_erase_iff]
    constructor
    · rintro ⟨hne, n, hm, rfl⟩
      refine ⟨n, ⟨?_, hm⟩, rfl⟩
      rintro rfl
      exact hne rfl
    · rintro ⟨n, ⟨hne, hm⟩, rfl⟩
      exact ⟨fun he => hne (h.eq_of_id hm hn he), n, hm, rfl⟩
  idsNodup := h.idsNodup.sublist (erase_sublist.map _)
  entries := by
    have hmem : node.hashValue ∈ c.cachedBlocks.keys := by
      rw [← AList.mem_keys, ← AList.lookup_isSome, (h.lookup _ node).mpr ⟨hn, rfl⟩]
      rfl
    have hkeys : ∀ s : AList (fun _ : Key => Block Key), s.entries.length = s.keys.length :=
      fun s => (length_map _).symm
    rw [hkeys, AList.keys_erase, length_erase_of_mem hmem, ← hkeys, h.entries,
      length_erase_of_mem hn]
  numBlocks := by
    rw [h.numBlocks, length_erase_of_mem hn]

end Registered

theorem erase_append_cons_perm {α : Type} [DecidableEq α] {l r : List α} {x : α}
    (hnodup : (l ++ r).Nodup) (hx : x ∈ l ++ r) :
    (l.erase x ++ x :: r.erase x).Perm (l ++ r) := by
  have hdisj := (nodup_append.mp hnodup).2.2
  rcases mem_append.mp hx with hl | hr
  · have hnr : x ∉ r := fun hr => hdisj x hl x hr rfl
    rw [erase_of_not_mem hnr]
    exact perm_middle.trans ((perm_cons_erase hl).symm.append_right r)
  · have hnl : x ∉ l := fun hl => hdisj x hl x hr rfl
    rw [erase_of_not_mem hnl]
    exact (perm_cons_erase hr).symm.append_left l

end Xllm.Framework
