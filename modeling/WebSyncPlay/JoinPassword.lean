import WebSyncPlay.RoomSystem

/-! The join password over a room's life: it is set and cleared, the security settings are
normalised, and the store keeps them as JSON (`services/room-security.ts`). -/
namespace WebSyncPlay

open Library

/-- The value of a JSON field, as far as the settings have them. -/
inductive JsonField
  | null
  | bool (b : Bool)
  | number (n : ℕ)
  | text (s : String)
  deriving DecidableEq

section Stored

def DefaultJoinRole.name : DefaultJoinRole → String
  | .guest => "guest"
  | .moderator => "moderator"

def jsonOfSecurity (security : RoomSecurityState) : List (String × JsonField) :=
  [("joinPasswordEnabled",.bool security.joinPasswordEnabled),
    ("joinPasswordUpdatedAt",
      match security.joinPasswordUpdatedAt with
      | some at_ => .number at_
      | none => .null),
    ("admissionVersion",.number security.admissionVersion),
    ("defaultJoinRole",.text security.defaultJoinRole.name)] ++
  (security.joinPasswordHash.map fun hash => ("joinPasswordHash",.text hash)).toList ++
  (security.joinPasswordSalt.map fun salt => ("joinPasswordSalt",.text salt)).toList

def asOptionalString : Option JsonField → Option String
  | some (.text s) => some s
  | _ => none

def asNonNegativeInt : Option JsonField → ℕ
  | some (.number n) => n
  | _ => 0

def asFiniteNumberOrNull : Option JsonField → Option ℕ
  | some (.number n) => some n
  | _ => none

def normalizeDefaultJoinRole (value : Option JsonField) : DefaultJoinRole :=
  if value = some (.text "guest") then .guest else .moderator

def normalizeStoredSecurity (current : List (String × JsonField)) : RoomSecurityState :=
  normalizeRoomSecurity {
    joinPasswordEnabled := current.lookup "joinPasswordEnabled" == some (.bool true)
    joinPasswordUpdatedAt := asFiniteNumberOrNull (current.lookup "joinPasswordUpdatedAt")
    admissionVersion := asNonNegativeInt (current.lookup "admissionVersion")
    defaultJoinRole := normalizeDefaultJoinRole (current.lookup "defaultJoinRole")
    joinPasswordHash := asOptionalString (current.lookup "joinPasswordHash")
    joinPasswordSalt := asOptionalString (current.lookup "joinPasswordSalt") }

theorem normalizeStoredSecurity_json (security : RoomSecurityState) :
    normalizeStoredSecurity (jsonOfSecurity security) = normalizeRoomSecurity security := by
  obtain ⟨enabled,updatedAt,version,role,hash,salt⟩ := security
  have hrole : normalizeDefaultJoinRole (some (.text role.name)) = role := by
    cases role <;> decide
  have henabled : (JsonField.bool enabled == JsonField.bool true) = enabled := by
    cases enabled <;> rfl
  cases updatedAt <;> cases hash <;> cases salt <;>
    simp [normalizeStoredSecurity,jsonOfSecurity,List.lookup,hrole,henabled,asFiniteNumberOrNull,
      asNonNegativeInt,asOptionalString]

end Stored

/-- A salt is 16 random bytes in hexadecimal. -/
def JoinPasswordSalt : Type := { salt : String // salt ≠ "" }

/-- What changes the settings of a room or stores them. -/
inductive SecurityOp
  | passwordSet (password : String) (salt : JoinPasswordSalt) (now : ℕ)
  | passwordClear (now : ℕ)
  | defaultRoleSet (role : DefaultJoinRole)
  | normalize
  | storeAndLoad

def SecurityOp.apply (env : Env) (state : RoomState) : SecurityOp → RoomState
  | .passwordSet password salt now => setJoinPassword env state password salt.1 now
  | .passwordClear now => (clearJoinPassword state now).getD state
  | .defaultRoleSet role => (setDefaultJoinRole state role).getD state
  | .normalize => ensureRoomSecurity state
  | .storeAndLoad =>
    { state with roomSecurity := normalizeStoredSecurity (jsonOfSecurity state.roomSecurity) }

def SecurityOp.password (current : Option String) : SecurityOp → Option String
  | .passwordSet password _ _ => some password
  | .passwordClear _ => none
  | _ => current

/-- A key of 64 bytes in hexadecimal, another one for every password of a salt. -/
structure ScryptInjective (env : Env) : Prop where
  nonempty : ∀ password salt, salt ≠ "" → env.hashJoinPassword password salt ≠ ""
  injective : ∀ password password' salt,
    env.hashJoinPassword password salt = env.hashJoinPassword password' salt → password = password'

abbrev Admits (env : Env) (state : RoomState) (supplied : Option String) : Prop :=
  evaluateJoinAdmission env (some state) supplied = .allowed

section Settings

variable {env : Env} {state : RoomState}

def CarriesPassword (env : Env) (security : RoomSecurityState) : Option String → Prop
  | none => (normalizeRoomSecurity security).joinPasswordEnabled = false
  | some password => security.joinPasswordEnabled = true ∧ ∃ salt, salt ≠ "" ∧
      security.joinPasswordSalt = some salt ∧
      security.joinPasswordHash = some (env.hashJoinPassword (trim password) salt)

theorem normalize_disabled {security : RoomSecurityState}
    (h : security.joinPasswordEnabled = false) :
    (normalizeRoomSecurity security).joinPasswordEnabled = false := by
  simp [normalizeRoomSecurity,h]

theorem normalize_of_secrets {security : RoomSecurityState} {hash salt : String}
    (hhash : security.joinPasswordHash = some hash) (hsalt : security.joinPasswordSalt = some salt)
    (hne : hash ≠ "") (hne' : salt ≠ "") : normalizeRoomSecurity security = security := by
  simp [normalizeRoomSecurity,hhash,hsalt,isBlank,hne,hne']

theorem CarriesPassword.normalize_eq (henv : ScryptInjective env) {security : RoomSecurityState}
    {password : String} (h : CarriesPassword env security (some password)) :
    normalizeRoomSecurity security = security := by
  obtain ⟨-,salt,hsalt,hstored,hhash⟩ := h
  exact normalize_of_secrets hhash hstored (henv.nonempty _ salt hsalt) hsalt

theorem CarriesPassword.normalize (henv : ScryptInjective env) {security : RoomSecurityState}
    {password : Option String} (h : CarriesPassword env security password) :
    CarriesPassword env (normalizeRoomSecurity security) password := by
  cases password with
  | none =>
    change (normalizeRoomSecurity (normalizeRoomSecurity security)).joinPasswordEnabled = false
    rw [normalizeRoomSecurity_idem]
    exact h
  | some password =>
    rw [CarriesPassword.normalize_eq henv h]
    exact h

theorem CarriesPassword.admits_none (h : CarriesPassword env state.roomSecurity none)
    (supplied : Option String) : Admits env state supplied := by
  have hdisabled : (normalizeRoomSecurity state.roomSecurity).joinPasswordEnabled = false := h
  unfold Admits evaluateJoinAdmission
  simp [hdisabled]

theorem CarriesPassword.admits_some (henv : ScryptInjective env) {password : String}
    (h : CarriesPassword env state.roomSecurity (some password)) (supplied : String) :
    Admits env state (some supplied) ↔ trim supplied ≠ "" ∧ trim supplied = trim password := by
  have hnormal := h.normalize_eq henv
  obtain ⟨henabled,salt,hsalt,hstored,hhash⟩ := h
  have hne : env.hashJoinPassword (trim password) salt ≠ "" := henv.nonempty _ salt hsalt
  have hverify : verifyJoinPassword env state.roomSecurity supplied = true ↔
      trim supplied = trim password := by
    rw [verifyJoinPassword,hhash,hstored]
    simp only [henabled,hne,hsalt,Bool.not_true,beq_iff_eq,Bool.false_or,Bool.or_eq_true,or_self,
      if_false]
    exact ⟨fun heq => (henv.injective _ _ salt heq).symm,fun heq => by rw [heq]⟩
  rw [Admits,evaluateJoinAdmission]
  simp only [hnormal,henabled,Bool.not_true,Bool.false_eq_true,if_false,beq_iff_eq]
  by_cases hblank : trim supplied = ""
  · simp [hblank]
  · by_cases hsame : trim supplied = trim password
    · rw [if_neg hblank,if_pos (hverify.mpr hsame)]
      exact ⟨fun _ => ⟨hblank,hsame⟩,fun _ => rfl⟩
    · rw [if_neg hblank,if_neg (fun hok => hsame (hverify.mp hok))]
      exact ⟨nofun,fun hok => absurd hok.2 hsame⟩

theorem admits_congr {state' : RoomState}
    (h : normalizeRoomSecurity state'.roomSecurity = normalizeRoomSecurity state.roomSecurity)
    (supplied : Option String) : Admits env state' supplied ↔ Admits env state supplied := by
  unfold Admits evaluateJoinAdmission
  simp only [h]

end Settings

section Ops

variable {env : Env} {state : RoomState}

theorem CarriesPassword.apply (henv : ScryptInjective env) {password : Option String}
    (h : CarriesPassword env state.roomSecurity password) (op : SecurityOp) :
    CarriesPassword env (op.apply env state).roomSecurity (op.password password) := by
  cases op with
  | passwordSet p salt now => exact ⟨rfl,salt.1,salt.2,rfl,rfl⟩
  | passwordClear now =>
    rw [SecurityOp.apply,clearJoinPassword]
    split
    · exact normalize_disabled rfl
    · rename_i hunchanged
      -- There was nothing to clear, so nothing was enabled.
      simp only [Bool.or_eq_true,not_or,Bool.not_eq_true] at hunchanged
      exact hunchanged.1.1
  | defaultRoleSet role =>
    have hnormal := h.normalize henv
    rw [SecurityOp.apply,setDefaultJoinRole]
    split
    · exact h
    · cases password with
      | none =>
        have hdisabled : (normalizeRoomSecurity state.roomSecurity).joinPasswordEnabled = false := h
        exact normalize_disabled hdisabled
      | some password => exact hnormal
  | normalize => exact h.normalize henv
  | storeAndLoad =>
    rw [SecurityOp.apply]
    dsimp only
    rw [normalizeStoredSecurity_json]
    exact h.normalize henv

theorem admissionVersion_apply (op : SecurityOp) :
    state.roomSecurity.admissionVersion ≤ (op.apply env state).roomSecurity.admissionVersion ∧
      ((∃ supplied, ¬(Admits env (op.apply env state) supplied ↔ Admits env state supplied)) →
        state.roomSecurity.admissionVersion <
          (op.apply env state).roomSecurity.admissionVersion) := by
  have hversion : (normalizeRoomSecurity state.roomSecurity).admissionVersion =
      state.roomSecurity.admissionVersion := by
    rw [normalizeRoomSecurity]
    split <;> rfl
  have hsame : ∀ state' : RoomState,
      state'.roomSecurity.admissionVersion = state.roomSecurity.admissionVersion →
      normalizeRoomSecurity state'.roomSecurity = normalizeRoomSecurity state.roomSecurity →
      state.roomSecurity.admissionVersion ≤ state'.roomSecurity.admissionVersion ∧
        ((∃ supplied, ¬(Admits env state' supplied ↔ Admits env state supplied)) →
          state.roomSecurity.admissionVersion < state'.roomSecurity.admissionVersion) := by
    intro state' hequal hnormal
    refine ⟨hequal.ge,?_⟩
    rintro ⟨supplied,hchange⟩
    exact absurd (admits_congr hnormal supplied) hchange
  cases op with
  | passwordSet p salt now =>
    have hnext : (SecurityOp.apply env state (.passwordSet p salt now)).roomSecurity.admissionVersion
        = state.roomSecurity.admissionVersion+1 := congrArg (·+1) hversion
    rw [hnext]
    exact ⟨Nat.le_succ _,fun _ => Nat.lt_succ_self _⟩
  | passwordClear now =>
    rw [SecurityOp.apply,clearJoinPassword]
    split
    · have hnext : (normalizeRoomSecurity state.roomSecurity).admissionVersion+1 =
          state.roomSecurity.admissionVersion+1 := congrArg (·+1) hversion
      simp only [Option.getD_some,hnext]
      exact ⟨Nat.le_succ _,fun _ => Nat.lt_succ_self _⟩
    · exact hsame state rfl rfl
  | defaultRoleSet role =>
    rw [SecurityOp.apply,setDefaultJoinRole]
    split
    · exact hsame state rfl rfl
    · refine ⟨hversion.ge,?_⟩
      rintro ⟨supplied,hchange⟩
      refine absurd ?_ hchange
      -- The role has no say in who is admitted.
      have hnormal : normalizeRoomSecurity { normalizeRoomSecurity state.roomSecurity with
          defaultJoinRole := role } = { normalizeRoomSecurity state.roomSecurity with
            defaultJoinRole := role } := by
        have hidem := normalizeRoomSecurity_idem state.roomSecurity
        generalize normalizeRoomSecurity state.roomSecurity = security at hidem ⊢
        by_cases hmissing : (security.joinPasswordEnabled &&
            (isBlank security.joinPasswordHash || isBlank security.joinPasswordSalt)) = true
        · rw [normalizeRoomSecurity,if_pos hmissing] at hidem
          have hdisabled : security.joinPasswordEnabled = false := by
            rw [← hidem]
          simp [hdisabled] at hmissing
        · rw [normalizeRoomSecurity]
          exact if_neg hmissing
      unfold Admits evaluateJoinAdmission
      simp only [Option.getD_some,hnormal]
      rfl
  | normalize => exact hsame _ hversion (normalizeRoomSecurity_idem _)
  | storeAndLoad =>
    have hloaded : (SecurityOp.apply env state .storeAndLoad).roomSecurity =
        normalizeRoomSecurity state.roomSecurity := normalizeStoredSecurity_json _
    refine hsame _ ?_ ?_
    · rw [hloaded,hversion]
    · rw [hloaded,normalizeRoomSecurity_idem]

theorem carriesPassword_run (henv : ScryptInjective env) (ops : List SecurityOp)
    {password : Option String} (h : CarriesPassword env state.roomSecurity password) :
    CarriesPassword env (ops.foldl (SecurityOp.apply env) state).roomSecurity
      (ops.foldl SecurityOp.password password) := by
  induction ops generalizing state password with
  | nil => exact h
  | cons op ops ih => exact ih (h.apply henv op)

end Ops

/-- After any changes of a room that began without a password: the one that was set last
admits exactly those who supply it, up to white space around it, if and only if it is not all
white space; without one everybody is admitted; and the version counts the changes. -/
theorem join_password_round_trip {env : Env} (henv : ScryptInjective env) {start : RoomState}
    (hstart : start.roomSecurity = createDefaultRoomSecurity) (ops : List SecurityOp) :
    (∀ password, ops.foldl SecurityOp.password none = some password →
      ((∀ supplied, Admits env (ops.foldl (SecurityOp.apply env) start) (some supplied) ↔
        trim supplied = trim password) ↔ trim password ≠ "")) ∧
    (ops.foldl SecurityOp.password none = none → ∀ supplied,
      Admits env (ops.foldl (SecurityOp.apply env) start) supplied) ∧
    ∀ op : SecurityOp,
      let state := ops.foldl (SecurityOp.apply env) start
      state.roomSecurity.admissionVersion ≤ (op.apply env state).roomSecurity.admissionVersion ∧
        ((∃ supplied, ¬(Admits env (op.apply env state) supplied ↔ Admits env state supplied)) →
          state.roomSecurity.admissionVersion <
            (op.apply env state).roomSecurity.admissionVersion) := by
  have hbegin : CarriesPassword env start.roomSecurity none := by
    rw [hstart]
    rfl
  have hcarries := carriesPassword_run henv ops hbegin
  refine ⟨fun password hpassword => ?_,fun hnone supplied => ?_,fun op =>
    admissionVersion_apply op⟩
  · rw [hpassword] at hcarries
    constructor
    · intro hall hblank
      have hself := (hall password).mpr rfl
      exact ((hcarries.admits_some henv password).mp hself).1 hblank
    · intro hne supplied
      rw [hcarries.admits_some henv]
      refine ⟨And.right,fun hsame => ⟨?_,hsame⟩⟩
      rw [hsame]
      exact hne
  · rw [hnone] at hcarries
    exact hcarries.admits_none supplied

section Scenarios

theorem scenarioEnv_scrypt : ScryptInjective scenarioEnv where
  nonempty password salt hsalt := by
    have hne : salt ++ password ≠ "" := by
      intro hempty
      have hlist := congrArg String.toList hempty
      rw [String.toList_append] at hlist
      exact hsalt (String.toList_inj.mp (List.append_eq_nil_iff.mp hlist).1)
    exact hne
  injective password password' salt h := by
    have heq : salt ++ password = salt ++ password' := h
    have hlist := congrArg String.toList heq
    rw [String.toList_append,String.toList_append] at hlist
    exact String.toList_inj.mp (List.append_cancel_left hlist)

def newRoom : RoomState := createInitialRoomState scenarioEnv {
  now := 1000, roomId := "room", userId := "ann", username := "Ann",
  avatarStyle := defaultAvatarStyle, activeConnections := {}, skipDefaultMedia := true,
  newIds := ["seed"] }

def hexSalt : JoinPasswordSalt := ⟨"00ff",by decide⟩

theorem join_password_round_trip_trimmed :
    Admits scenarioEnv ([.passwordSet "moon " hexSalt 2000,.storeAndLoad].foldl
      (SecurityOp.apply scenarioEnv) newRoom) (some " moon") ↔ trim " moon" = trim "moon " :=
  ((@join_password_round_trip _ scenarioEnv_scrypt newRoom rfl
    [.passwordSet "moon " hexSalt 2000,.storeAndLoad]).1 "moon " rfl).mpr (by decide +kernel) " moon"

/-- A password of one blank locks everybody out. -/
theorem blank_password_locks_out :
    ¬∀ (env : Env) (start : RoomState) (ops : List SecurityOp) (password : String),
      ScryptInjective env → start.roomSecurity = createDefaultRoomSecurity →
      1 ≤ password.length → password.length ≤ 256 →
      ops.foldl SecurityOp.password none = some password → ∀ supplied,
        Admits env (ops.foldl (SecurityOp.apply env) start) (some supplied) ↔
          trim supplied = trim password := by
  intro h
  have hself := (h scenarioEnv newRoom [.passwordSet " " hexSalt 2000] " " scenarioEnv_scrypt rfl
    (by decide) (by decide) rfl " ").mpr rfl
  revert hself
  decide +kernel

end Scenarios

end WebSyncPlay
