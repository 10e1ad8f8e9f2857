import WebSyncPlay.RedisKeys
import WebSyncPlay.ParticipantPrune

/-! Pairs of ids as one string: the members of the two pending sets, which are split at their
first tab, and the channel of a user, which a regular expression takes apart. -/
namespace WebSyncPlay

open Library

section Members

def codeUnits (s : String) : ℕ := (s.toList.map fun c => if c.toNat < 0x10000 then 1 else 2).sum

/-- `z.string().min(1).max(128)`, the schema of room ids, user ids and item ids. -/
def idSchema (s : String) : Bool := decide (1 ≤ codeUnits s) && decide (codeUnits s ≤ 128)

theorem ne_empty_of_idSchema {s : String} (h : idSchema s = true) : s.toList ≠ [] := by
  intro hempty
  simp [idSchema,codeUnits,hempty] at h

def encodePendingMember (roomId : String) (itemId : ItemId) : String := roomId ++ "\t" ++ itemId

def parsePendingMember (member : String) : Option (String × ItemId) :=
  let roomId := member.toList.takeWhile (· != '\t')
  let rest := member.toList.dropWhile (· != '\t')
  if roomId = [] ∨ rest.length ≤ 1 then none
  else some (String.ofList roomId,String.ofList rest.tail)

/-- What is behind the first tab is taken whole, so only the first id must not have one. -/
theorem parsePruneMember_encode {roomId userId : String} (hroom : roomId.toList ≠ [])
    (huser : userId.toList ≠ []) :
    parsePruneMember (encodePruneMember roomId userId) = some (roomId,userId) ↔
      '\t' ∉ roomId.toList := by
  have hmember : (encodePruneMember roomId userId).toList =
      roomId.toList ++ '\t' :: userId.toList := by
    rw [encodePruneMember,String.toList_append,String.toList_append,List.append_assoc]
    rfl
  constructor
  · intro h
    rw [parsePruneMember] at h
    split at h
    · cases h
    · have hsame : String.ofList ((encodePruneMember roomId userId).toList.takeWhile (· != '\t')) =
          roomId := congrArg Prod.fst (Option.some.inj h)
      rw [← hsame,String.toList_ofList]
      intro htab
      simpa using List.mem_takeWhile_imp htab
  · intro htab
    have hkeep : ∀ c ∈ roomId.toList, (c != '\t') = true := by
      intro c hc
      simp only [bne_iff_ne]
      rintro rfl
      exact htab hc
    have hfirst : (encodePruneMember roomId userId).toList.takeWhile (· != '\t') =
        roomId.toList := by
      rw [hmember,List.takeWhile_append_of_pos hkeep]
      simp
    have hrest : (encodePruneMember roomId userId).toList.dropWhile (· != '\t') =
        '\t' :: userId.toList := by
      rw [hmember,List.dropWhile_append_of_pos hkeep]
      simp
    rw [parsePruneMember,hfirst,hrest,if_neg]
    · simp
    · simp [hroom,huser]

theorem parsePendingMember_encode {roomId itemId : String} (hroom : roomId.toList ≠ [])
    (hitem : itemId.toList ≠ []) :
    parsePendingMember (encodePendingMember roomId itemId) = some (roomId,itemId) ↔
      '\t' ∉ roomId.toList :=
  parsePruneMember_encode hroom hitem

end Members

section Channel

/-- What a dot of a regular expression does not match. -/
def isLineTerminator (c : Char) : Bool :=
  c == '\n' || c == '\r' || c.toNat == 0x2028 || c.toNat == 0x2029

/-- `/^room:(.+):user:(.+):ephemeral$/`, the first group as long as can be. -/
def matchUserEphemeral (channel : List Char) : Option (List Char × List Char) :=
  if "room:".toList.isPrefixOf channel ∧ ":ephemeral".toList.isSuffixOf (channel.drop 5) then
    let groups := (channel.drop 5).take ((channel.drop 5).length-10)
    match lastSplit ":user:".toList groups with
    | some (roomId,userId) =>
      if roomId = [] ∨ groups.any isLineTerminator then none else some (roomId,userId)
    | none => none
  else none

def parseRoomUserEphemeralChannel (channel : String) : Option (String × UserId) :=
  (matchUserEphemeral (trim channel).toList).map fun groups =>
    (String.ofList groups.1,String.ofList groups.2)

theorem userEphemeral_toList (roomId userId : String) :
    (keys.roomUserEphemeralChannel roomId userId).toList =
      "room:".toList ++ (roomId.toList ++ ":user:".toList ++ userId.toList) ++
        ":ephemeral".toList := by
  simp [keys.roomUserEphemeralChannel,roomPrefix]

/-- The channel has a letter at each end, so there is nothing to trim. -/
theorem trim_userEphemeral (roomId userId : String) :
    trim (keys.roomUserEphemeralChannel roomId userId) =
      keys.roomUserEphemeralChannel roomId userId := by
  have hlist := userEphemeral_toList roomId userId
  have hlast : ":ephemeral".toList = ":ephemera".toList ++ ['l'] := by decide
  have hfirst : "room:".toList = 'r' :: "oom:".toList := by decide
  refine @trim_eq_self _ 'r' 'l'
    ("oom:".toList ++ (roomId.toList ++ ":user:".toList ++ userId.toList) ++ ":ephemeral".toList)
    ("room:".toList ++ (roomId.toList ++ ":user:".toList ++ userId.toList) ++ ":ephemera".toList)
    (by decide) (by decide) ?_ ?_
  · rw [hlist,hfirst]
    rfl
  · rw [hlist,hlast]
    simp only [List.append_assoc]

theorem matchUserEphemeral_eq (groups : List Char) :
    matchUserEphemeral ("room:".toList ++ groups ++ ":ephemeral".toList) =
      match lastSplit ":user:".toList groups with
      | some (roomId,userId) =>
        if roomId = [] ∨ groups.any isLineTerminator then none else some (roomId,userId)
      | none => none := by
  have hlength : "room:".toList.length = 5 := by decide
  have hlength' : ":ephemeral".toList.length = 10 := by decide
  have hdrop : ("room:".toList ++ groups ++ ":ephemeral".toList).drop 5 =
      groups ++ ":ephemeral".toList := by
    rw [List.append_assoc,← hlength,List.drop_left]
  have hgroups : (groups ++ ":ephemeral".toList).take
      ((groups ++ ":ephemeral".toList).length-10) = groups := by
    rw [List.length_append,hlength',Nat.add_sub_cancel,List.take_left]
  rw [matchUserEphemeral,hdrop,if_pos]
  · rw [hgroups]
  · refine ⟨?_,?_⟩
    · rw [List.append_assoc]
      exact List.isPrefixOf_iff_prefix.mpr (List.prefix_append _ _)
    · exact List.isSuffixOf_iff_suffix.mpr (List.suffix_append _ _)

/-- A later `:user:` is in the user id, or shares its first colon with the right one. -/
theorem later_split_iff {roomId userId : List Char} :
    (∀ first rest, roomId ++ ":user:".toList ++ userId = first ++ ":user:".toList ++ rest →
        rest ≠ [] → first.length ≤ roomId.length) ↔
      ¬∃ before after, after ≠ [] ∧ ':' :: userId = before ++ ":user:".toList ++ after := by
  have hword : ":user:".toList = ':' :: ("user".toList ++ [':']) := by decide
  have hcolon : ':' ∉ "user".toList := by decide
  constructor
  · rintro hmax ⟨before,after,hafter,hsplit⟩
    have heq : roomId ++ ":user:".toList ++ userId =
        (roomId ++ ':' :: "user".toList ++ before) ++ ":user:".toList ++ after := by
      have htail : roomId ++ ":user:".toList ++ userId =
          roomId ++ ':' :: "user".toList ++ ':' :: userId := by
        rw [hword]
        simp
      rw [htail,hsplit]
      simp only [List.append_assoc]
    have hle := hmax _ _ heq hafter
    simp only [List.length_append,List.length_cons] at hle
    omega
  · intro hno first rest hsplit hrest
    by_contra hlong
    have hlt : roomId.length < first.length := not_le.mp hlong
    rw [List.append_assoc,List.append_assoc] at hsplit
    rcases List.append_eq_append_iff.mp hsplit with ⟨more,rfl,htail⟩ | ⟨more,rfl,-⟩
    · cases more with
      | nil => simp at hlt
      | cons c more =>
        -- The first colon is the one before the right `user`.
        rw [hword,List.cons_append,List.cons_append,List.append_assoc] at htail
        obtain ⟨-,hrest'⟩ := List.cons.inj htail
        rcases List.append_eq_append_iff.mp hrest' with ⟨before,-,hbefore⟩ | ⟨more',hmore',hbefore⟩
        · refine hno ⟨before,rest,hrest,?_⟩
          rw [List.append_assoc]
          exact hbefore
        · cases more' with
          | nil =>
            refine hno ⟨[],rest,hrest,?_⟩
            simpa using hbefore.symm
          | cons d more' =>
            obtain ⟨rfl,-⟩ := List.cons.inj hbefore
            refine absurd ?_ hcolon
            rw [hmore']
            simp
    · rw [List.length_append] at hlt
      omega

theorem parseRoomUserEphemeralChannel_channel {roomId userId : String} (hroom : roomId.toList ≠ [])
    (huser : userId.toList ≠ []) :
    parseRoomUserEphemeralChannel (keys.roomUserEphemeralChannel roomId userId) =
        some (roomId,userId) ↔
      (∀ c, c ∈ roomId.toList ∨ c ∈ userId.toList → isLineTerminator c = false) ∧
        ¬∃ before after, after ≠ [] ∧ ':' :: userId.toList = before ++ ":user:".toList ++ after := by
  have hpair : ∀ found : Option (List Char × List Char),
      found.map (fun groups => (String.ofList groups.1,String.ofList groups.2)) =
        some (roomId,userId) ↔ found = some (roomId.toList,userId.toList) := by
    intro found
    cases found with
    | none => simp
    | some groups =>
      obtain ⟨first,second⟩ := groups
      simp only [Option.map_some,Option.some.injEq,Prod.mk.injEq]
      constructor
      · rintro ⟨rfl,rfl⟩
        exact ⟨(String.toList_ofList ..).symm,(String.toList_ofList ..).symm⟩
      · rintro ⟨rfl,rfl⟩
        exact ⟨String.ofList_toList ..,String.ofList_toList ..⟩
  have hlines : ((roomId.toList ++ ":user:".toList ++ userId.toList).any isLineTerminator = true) ↔
      ¬∀ c, c ∈ roomId.toList ∨ c ∈ userId.toList → isLineTerminator c = false := by
    have hword : ":user:".toList.any isLineTerminator = false := by decide
    rw [List.any_append,List.any_append,hword,Bool.or_false]
    simp only [Bool.or_eq_true,List.any_eq_true,not_forall,Bool.not_eq_false]
    constructor
    · rintro (⟨c,hc,hline⟩ | ⟨c,hc,hline⟩)
      · exact ⟨c,Or.inl hc,hline⟩
      · exact ⟨c,Or.inr hc,hline⟩
    · rintro ⟨c,hc | hc,hline⟩
      · exact Or.inl ⟨c,hc,hline⟩
      · exact Or.inr ⟨c,hc,hline⟩
  rw [parseRoomUserEphemeralChannel,hpair,trim_userEphemeral,userEphemeral_toList,
    matchUserEphemeral_eq,← later_split_iff,← lastSplit_eq_some_iff huser]
  constructor
  · intro h
    split at h
    · rename_i first second hsplit
      split at h
      · cases h
      · rename_i hok
        cases h
        refine ⟨?_,hsplit⟩
        by_contra hline
        exact hok (Or.inr (hlines.mpr hline))
    · cases h
  · rintro ⟨hline,hsplit⟩
    rw [hsplit]
    refine if_neg ?_
    rintro (hempty | hany)
    · exact hroom hempty
    · exact hlines.mp hany hline

end Channel

/-- The three decoders give the two ids back: the members when the room id has no tab, the
channel when neither id has a line terminator and the user id brings no `:user:` of its own. -/
theorem composite_members {roomId userId itemId : String} (hroom : idSchema roomId = true)
    (huser : idSchema userId = true) (hitem : idSchema itemId = true) :
    (parsePruneMember (encodePruneMember roomId userId) = some (roomId,userId) ↔
      '\t' ∉ roomId.toList) ∧
    (parsePendingMember (encodePendingMember roomId itemId) = some (roomId,itemId) ↔
      '\t' ∉ roomId.toList) ∧
    (parseRoomUserEphemeralChannel (keys.roomUserEphemeralChannel roomId userId) =
        some (roomId,userId) ↔
      (∀ c, c ∈ roomId.toList ∨ c ∈ userId.toList → isLineTerminator c = false) ∧
        ¬∃ before after, after ≠ [] ∧
          ':' :: userId.toList = before ++ ":user:".toList ++ after) :=
  ⟨parsePruneMember_encode (ne_empty_of_idSchema hroom) (ne_empty_of_idSchema huser),
    parsePendingMember_encode (ne_empty_of_idSchema hroom) (ne_empty_of_idSchema hitem),
    parseRoomUserEphemeralChannel_channel (ne_empty_of_idSchema hroom)
      (ne_empty_of_idSchema huser)⟩

theorem composite_members_of_ann :
    parsePruneMember (encodePruneMember "room" "ann") = some ("room","ann") ∧
      parsePendingMember (encodePendingMember "room" "item") = some ("room","item") ∧
      parseRoomUserEphemeralChannel (keys.roomUserEphemeralChannel "room" "ann") =
        some ("room","ann") := by
  have h := @composite_members "room" "ann" "item" (by decide) (by decide) (by decide)
  refine ⟨h.1.mpr (by decide),h.2.1.mpr (by decide),h.2.2.mpr ⟨fun c hc => ?_,?_⟩⟩
  · have hall : ("room".toList ++ "ann".toList).all (fun d => !isLineTerminator d) = true := by
      decide
    simpa using List.all_eq_true.mp hall c (List.mem_append.mpr hc)
  · rintro ⟨before,after,-,heq⟩
    have hlength := congrArg List.length heq
    simp at hlength
    omega

/-- A tab in a room id, and a `:user:` in a user id, lead to another room. -/
theorem separators_lead_elsewhere :
    (¬∀ roomId userId, idSchema roomId = true → idSchema userId = true →
      parsePruneMember (encodePruneMember roomId userId) = some (roomId,userId)) ∧
    (¬∀ roomId itemId, idSchema roomId = true → idSchema itemId = true →
      parsePendingMember (encodePendingMember roomId itemId) = some (roomId,itemId)) ∧
    ¬∀ roomId userId, idSchema roomId = true → idSchema userId = true →
      parseRoomUserEphemeralChannel (keys.roomUserEphemeralChannel roomId userId) =
        some (roomId,userId) := by
  refine ⟨fun h => ?_,fun h => ?_,fun h => ?_⟩
  · have hsame := h "a\tb" "ann" (by decide) (by decide)
    revert hsame
    decide +kernel
  · have hsame := h "a\tb" "item" (by decide) (by decide)
    revert hsame
    decide +kernel
  · have hsame := h "a" "b:user:c" (by decide) (by decide)
    revert hsame
    decide +kernel

end WebSyncPlay
