import Mathlib
import Ppaass.Lib.Fallible
import Ppaass.Lib.Wrapping
import Ppaass.Lib.Result
import Ppaass.Protocol.Rsa

/-!
# Authentication of agent connections

`ServerConnection::authenticate` (`proxy/src/connection/auth.rs`) takes the
`AuthRequest` that `peek_auth_username` left pending and checks, in this
order, that its username is the user's, that its timestamp is within
`replay_attack_tolerance` of the clock, that the user has not expired
(`UserConfig::is_expired_at`, `proxy/src/config/user_config.rs`), and that
the user's public key decrypts `encrypted_aes_key` to 32 bytes. The first
three checks answer a failure with an `AuthResponse` of `success: false`;
success sends the successful response, then records the user and installs
the AES cipher (`CipherState::set_cipher`). The native UDP handshake makes
the first three checks in `validate_udp_auth` (`proxy/src/native_udp/auth.rs`).

The clock, the session id, the PEM decoder of the `rsa` crate, the framed
writer and the time parsers of the standard library are inputs.

`authenticate_triple` says what one call does from every connection with a
pending request: it succeeds exactly when the checks pass and the writer
takes the successful response, and a failure leaves the user and the cipher
as they were. The timestamp test is `(current_time - timestamp).abs() >
tolerance` in `i64`, which release builds (the workspace sets no
`overflow-checks`) compute with wrapping arithmetic; it agrees with the
`abs_diff` test of `validate_udp_auth` whenever the clock and the timestamp
are less than `2^63` seconds apart (`timestampExpired_iff_udp`), and not
otherwise.
-/

namespace Ppaass.Proxy

open Ppaass.Protocol Ppaass.Fallible Ppaass.Result Ppaass.Wrapping

/-- The `ProxyError` variants of authentication, with their messages. -/
inductive ProxyError where
  | connection (message : String)
  | authentication (message : String)
  | configuration (message : String)
  deriving DecidableEq, Repr

/-- The `Display` text of the `ProtocolError`s that decryption returns. -/
def protocolErrorText : ProtocolError → String
  | .encryption message => "Encryption error: " ++ message
  | .decryption message => "Decryption error: " ++ message

/-- `UserConfig`. -/
structure UserConfig where
  username : String
  publicKeyPem : String
  expiresAt : Option String
  deriving DecidableEq, Repr

/-- The standard-library calls of `parse_expires_at`: `str::trim`,
`str::parse::<i64>`, and `OffsetDateTime::parse(_, &Rfc3339)` followed by
`unix_timestamp`, with the text of its error. -/
structure TimeParsers where
  trim : String → String
  parseI64 : String → Option Int64
  parseRfc3339 : String → Except String Int64

/-- `parse_expires_at`. -/
def parseExpiresAt (parsers : TimeParsers) (username expiresAt : String) :
    Except ProxyError Int64 :=
  let expiresAt := parsers.trim expiresAt
  if expiresAt.isEmpty then
    .error (.configuration
      ("用户 " ++ username ++ " 的 expires_at 不能为空；不需要过期时间时请删除该字段"))
  else
    match parsers.parseI64 expiresAt with
    | some timestamp => .ok timestamp
    | none =>
      (parsers.parseRfc3339 expiresAt).mapError fun e => .configuration
        ("用户 " ++ username ++ " 的 expires_at 格式无效：" ++ expiresAt ++
          "，请使用 RFC3339，例如 2026-12-31T23:59:59Z，或 Unix 秒级时间戳：" ++ e)

namespace UserConfig

/-- `expires_at_unix_timestamp`. -/
def expiresAtUnixTimestamp (parsers : TimeParsers) (user : UserConfig) :
    Except ProxyError (Option Int64) :=
  match user.expiresAt with
  | none => .ok none
  | some expiresAt => some <$> parseExpiresAt parsers user.username expiresAt

/-- `is_expired_at`. -/
def isExpiredAt (parsers : TimeParsers) (user : UserConfig) (currentTimestamp : Int64) :
    Except ProxyError Bool := do
  let expiresAt ← user.expiresAtUnixTimestamp parsers
  pure (expiresAt.any fun expiresAt => currentTimestamp >= expiresAt)

end UserConfig

/-- The field of `ProxyConfig` that authentication reads. -/
structure ProxyConfig where
  replayAttackTolerance : Int64
  deriving DecidableEq, Repr

/-- `AuthRequest`. -/
structure AuthRequest where
  username : String
  timestamp : Int64
  encryptedAesKey : List UInt8
  deriving DecidableEq, Repr

/-- `AuthResponse`. -/
structure AuthResponse where
  success : Bool
  message : String
  sessionId : Option String
  deriving DecidableEq, Repr

/-- The `ProxyResponse` variant that authentication sends. -/
inductive ProxyResponse where
  | auth (response : AuthResponse)
  deriving DecidableEq, Repr

/-- `CipherState`: the `OnceLock` of the AES cipher, which
`AesGcmCipher::from_key` builds from its 32-byte key. The compression mode is
not read here. -/
structure CipherState where
  cipher : Option (Vector UInt8 32)
  deriving DecidableEq, Repr

/-- `set_cipher`: `OnceLock::set` keeps a cipher already installed. -/
def CipherState.setCipher (state : CipherState) (cipher : Vector UInt8 32) : CipherState :=
  match state.cipher with
  | none => ⟨some cipher⟩
  | some _ => state

/-- The fields of `ServerConnection` that authentication reads and writes;
`sent` is what the framed writer has taken. -/
structure ServerConnection where
  pendingAuthRequest : Option AuthRequest
  userConfig : Option UserConfig
  cipherState : CipherState
  sent : List ProxyResponse
  deriving DecidableEq, Repr

/-- `RsaKeyPair::from_public_key_pem`: the `rsa` crate's decoder, its error
shown as `ProtocolError::InvalidKey` shows it. -/
def fromPublicKeyPem (decodePem : String → Except String RsaPublicKey) (pem : String) :
    Except String RsaPublicKey :=
  (decodePem pem).mapError fun e => "Invalid key: " ++ e

/-- `<[u8; 32]>::try_from(Vec<u8>)`. -/
def toAesKey (bytes : List UInt8) : Option (Vector UInt8 32) :=
  if h : bytes.length = 32 then some ⟨bytes.toArray, by simpa using h⟩ else none

section Authenticate

variable (parsers : TimeParsers) (decodePem : String → Except String RsaPublicKey)
  (send : ProxyResponse → Except String Unit)

/-- `send_response`; `send` is the framed writer. -/
def sendResponse (response : ProxyResponse) :
    ExceptT ProxyError (StateM ServerConnection) Unit :=
  match send response with
  | .ok () => modify fun conn => { conn with sent := conn.sent ++ [response] }
  | .error e => throw (.connection ("Failed to send response: " ++ e))

/-- The response `send_auth_error` sends. -/
def authFailure (message : String) : ProxyResponse := .auth ⟨false, message, none⟩

/-- `send_auth_error`. -/
def sendAuthError (message : String) : ExceptT ProxyError (StateM ServerConnection) Unit :=
  sendResponse send (authFailure message)

/-- The response of a successful authentication. -/
def authSuccess (sessionId : String) : ProxyResponse :=
  .auth ⟨true, "Authentication successful", some sessionId⟩

/-- `authenticate`, with `current_timestamp()` and `generate_id()` as inputs. -/
def authenticate (proxyConfig : ProxyConfig) (userConfig : UserConfig) (currentTime : Int64)
    (sessionId : String) : ExceptT ProxyError (StateM ServerConnection) Unit := do
  let conn ← get
  set { conn with pendingAuthRequest := none }
  let some authRequest := conn.pendingAuthRequest
    | throw (.authentication "No pending auth request")
  if authRequest.username != userConfig.username then
    sendAuthError send "Username mismatch"
    throw (.authentication "Username mismatch")
  if (currentTime - authRequest.timestamp).abs > proxyConfig.replayAttackTolerance then
    sendAuthError send "Timestamp expired"
    throw (.authentication "Timestamp expired")
  if ← userConfig.isExpiredAt parsers currentTime then
    sendAuthError send "User expired"
    throw (.authentication "User expired")
  let userPublicKey ← (fromPublicKeyPem decodePem userConfig.publicKeyPem).mapError
    fun e => ProxyError.authentication ("Invalid public key: " ++ e)
  let aesKeyBytes ← (decryptWithPublicKey userPublicKey authRequest.encryptedAesKey).mapError
    fun e => ProxyError.authentication ("Failed to decrypt AES key: " ++ protocolErrorText e)
  let some aesKey := toAesKey aesKeyBytes
    | throw (.authentication "Invalid AES key length")
  sendResponse send (authSuccess sessionId)
  modify fun conn => { conn with userConfig := some userConfig }
  modify fun conn => { conn with cipherState := conn.cipherState.setCipher aesKey }

end Authenticate

/-- The fields of `UdpAuthInit` that `validate_udp_auth` reads. -/
structure UdpAuthInit where
  username : String
  timestamp : Int64
  deriving DecidableEq, Repr

/-- `validate_udp_auth`, with `current_timestamp()` as an input. -/
def validateUdpAuth (parsers : TimeParsers) (config : ProxyConfig) (user : UserConfig)
    (auth : UdpAuthInit) (now : Int64) : Except ProxyError Unit := do
  if auth.username != user.username then
    throw (.authentication "Username mismatch")
  let tolerance := (max config.replayAttackTolerance 0).toUInt64
  if absDiff now auth.timestamp > tolerance then
    throw (.authentication "Timestamp expired")
  if ← user.isExpiredAt parsers now then
    throw (.authentication "User expired")
  pure ()

-- ---------------------------------------------------------------------------
-- What one call of `authenticate` does
-- ---------------------------------------------------------------------------

section Spec

variable (parsers : TimeParsers) (decodePem : String → Except String RsaPublicKey)
  (send : ProxyResponse → Except String Unit)

theorem toAesKey_toList (aesKey : Vector UInt8 32) : toAesKey aesKey.toList = some aesKey := by
  simp [toAesKey, Vector.toList]

theorem toList_of_toAesKey {bytes : List UInt8} {aesKey : Vector UInt8 32}
    (h : toAesKey bytes = some aesKey) : aesKey.toList = bytes := by
  unfold toAesKey at h
  split_ifs at h with hlen
  cases h
  simp

/-- The connection after a successful `authenticate`. -/
def ServerConnection.authenticated (conn : ServerConnection) (userConfig : UserConfig)
    (aesKey : Vector UInt8 32) (sessionId : String) : ServerConnection where
  pendingAuthRequest := none
  userConfig := some userConfig
  cipherState := conn.cipherState.setCipher aesKey
  sent := conn.sent ++ [authSuccess sessionId]

/-- What a failed `authenticate` leaves: the request taken, the user and the
cipher as they were, and at most the failure response, which carries the
error's message. -/
structure Refused (conn : ServerConnection) (e : ProxyError) (conn' : ServerConnection) :
    Prop where
  pendingAuthRequest : conn'.pendingAuthRequest = none
  userConfig : conn'.userConfig = conn.userConfig
  cipherState : conn'.cipherState = conn.cipherState
  sent : conn'.sent = conn.sent ∨
    ∃ message, e = .authentication message ∧ conn'.sent = conn.sent ++ [authFailure message]

theorem refused_take (conn : ServerConnection) (e : ProxyError) :
    Refused conn e { conn with pendingAuthRequest := none } :=
  ⟨rfl, rfl, rfl, .inl rfl⟩

/-- The checks of `authenticate`, as the code makes them, passed with the AES
key they yield. -/
structure Admits (proxyConfig : ProxyConfig) (userConfig : UserConfig) (currentTime : Int64)
    (authRequest : AuthRequest) (aesKey : Vector UInt8 32) : Prop where
  username : authRequest.username = userConfig.username
  timestamp : ¬ (currentTime - authRequest.timestamp).abs > proxyConfig.replayAttackTolerance
  notExpired : userConfig.isExpiredAt parsers currentTime = .ok false
  publicKey : ∃ key, fromPublicKeyPem decodePem userConfig.publicKeyPem = .ok key ∧
    decryptWithPublicKey key authRequest.encryptedAesKey = .ok aesKey.toList

variable {parsers decodePem} {proxyConfig : ProxyConfig} {userConfig : UserConfig}
  {currentTime : Int64} {authRequest : AuthRequest}

/-- The key that decrypts is the one the PEM decodes to. -/
theorem Admits.decrypt_eq {aesKey : Vector UInt8 32}
    (hk : Admits parsers decodePem proxyConfig userConfig currentTime authRequest aesKey)
    {key : RsaPublicKey} (hkey : fromPublicKeyPem decodePem userConfig.publicKeyPem = .ok key) :
    decryptWithPublicKey key authRequest.encryptedAesKey = .ok aesKey.toList := by
  obtain ⟨key', hkey', hdec⟩ := hk.publicKey
  rw [hkey] at hkey'
  cases hkey'
  exact hdec

theorem Admits.aesKey_eq {aesKey aesKey' : Vector UInt8 32}
    (hk : Admits parsers decodePem proxyConfig userConfig currentTime authRequest aesKey)
    (hk' : Admits parsers decodePem proxyConfig userConfig currentTime authRequest aesKey') :
    aesKey = aesKey' := by
  obtain ⟨key, hkey, hdec⟩ := hk.publicKey
  rw [hk'.decrypt_eq hkey] at hdec
  exact Vector.toList_inj.mp (Except.ok.inj hdec).symm

theorem sendResponse_triple (response : ProxyResponse) (conn : ServerConnection) :
    Triple (sendResponse send response) conn
      (fun _ conn' => send response = .ok () ∧ conn' = { conn with sent := conn.sent ++ [response] })
      (fun _ conn' => conn' = conn ∧ send response ≠ .ok ()) := by
  unfold sendResponse
  cases h : send response with
  | ok u => exact Triple.modify ⟨rfl, rfl⟩
  | error e => exact Triple.throw ⟨rfl, by simp⟩

/-- A failed check: `send_auth_error` and the error, from the state with the
request taken. -/
theorem reject_triple (message : String)
    (k : Unit → ExceptT ProxyError (StateM ServerConnection) Unit) (conn : ServerConnection)
    {Q : Unit → ServerConnection → Prop} :
    Triple (sendAuthError send message >>= fun _ => throw (ProxyError.authentication message) >>= k)
      { conn with pendingAuthRequest := none } Q (Refused conn) := by
  unfold sendAuthError
  refine Triple.bind ((sendResponse_triple send _ _).mono (fun _ _ h => h) fun e _ h => ?_) ?_
  · obtain ⟨rfl, -⟩ := h
    exact refused_take conn e
  · rintro _ conn' ⟨-, rfl⟩
    exact Triple.bind (Triple.throw (Q := fun _ _ => False) ⟨rfl, rfl, rfl, .inr ⟨message, rfl, rfl⟩⟩)
      fun _ _ h => h.elim

variable (parsers decodePem proxyConfig userConfig currentTime)

/-- One call of `authenticate` on a connection with a pending request: it
succeeds exactly when the checks pass and the writer takes the successful
response, and then it sends that response, records the user and installs the
cipher; otherwise it is `Refused`. -/
theorem authenticate_triple (sessionId : String) (conn : ServerConnection)
    (hpending : conn.pendingAuthRequest = some authRequest) :
    Triple (authenticate parsers decodePem send proxyConfig userConfig currentTime sessionId) conn
      (fun _ conn' => ∃ aesKey,
        Admits parsers decodePem proxyConfig userConfig currentTime authRequest aesKey ∧
        send (authSuccess sessionId) = .ok () ∧
        conn' = conn.authenticated userConfig aesKey sessionId)
      (fun e conn' => Refused conn e conn' ∧ ∀ aesKey,
        Admits parsers decodePem proxyConfig userConfig currentTime authRequest aesKey →
        send (authSuccess sessionId) ≠ .ok ()) := by
  unfold authenticate
  refine Triple.bind (R := fun c c' => c = conn ∧ c' = conn) (Triple.get ⟨rfl, rfl⟩) ?_
  rintro c c' ⟨hc, hc'⟩
  rw [hc, hc']
  refine Triple.bind (R := fun _ c' => c' = { conn with pendingAuthRequest := none })
    (Triple.set rfl) ?_
  rintro _ c₁ rfl
  simp only [hpending]
  -- the username
  by_cases huser : authRequest.username = userConfig.username
  swap
  · rw [if_pos (by simpa using huser)]
    exact (reject_triple send _ _ conn).mono (fun _ _ h => h)
      fun _ _ h => ⟨h, fun _ hk => absurd hk.username huser⟩
  rw [if_neg (by simpa using huser)]
  -- the timestamp
  by_cases htime : (currentTime - authRequest.timestamp).abs > proxyConfig.replayAttackTolerance
  · rw [if_pos htime]
    exact (reject_triple send _ _ conn).mono (fun _ _ h => h)
      fun _ _ h => ⟨h, fun _ hk => absurd htime hk.timestamp⟩
  rw [if_neg htime]
  -- the expiry, whose configuration error is passed on with `?`
  refine Triple.bind (R := fun expired c' => c' = { conn with pendingAuthRequest := none } ∧
      userConfig.isExpiredAt parsers currentTime = .ok expired)
    (Triple.lift (fun _ h => ⟨rfl, h⟩) fun e h => ⟨refused_take conn e, fun _ hk => by
      rw [hk.notExpired] at h
      cases h⟩) ?_
  rintro expired c₂ ⟨rfl, hexpired⟩
  cases expired with
  | true =>
    rw [if_pos rfl]
    exact (reject_triple send _ _ conn).mono (fun _ _ h => h) fun _ _ h => ⟨h, fun _ hk => by
      rw [hk.notExpired] at hexpired
      cases hexpired⟩
  | false =>
  rw [if_neg Bool.false_ne_true]
  -- the public key and the decryption, whose errors are passed on without a response
  refine Triple.bind (R := fun key c' => c' = { conn with pendingAuthRequest := none } ∧
      fromPublicKeyPem decodePem userConfig.publicKeyPem = .ok key)
    (Triple.lift (fun _ h => ⟨rfl, mapError_eq_ok.mp h⟩) fun e h => ?_) ?_
  · obtain ⟨e₀, he₀⟩ := exists_eq_error_of_mapError h
    refine ⟨refused_take conn e, fun _ hk => ?_⟩
    obtain ⟨key, hkey, -⟩ := hk.publicKey
    rw [hkey] at he₀
    cases he₀
  rintro key c₃ ⟨rfl, hkey⟩
  refine Triple.bind (R := fun bytes c' => c' = { conn with pendingAuthRequest := none } ∧
      decryptWithPublicKey key authRequest.encryptedAesKey = .ok bytes)
    (Triple.lift (fun _ h => ⟨rfl, mapError_eq_ok.mp h⟩) fun e h => ?_) ?_
  · obtain ⟨e₀, he₀⟩ := exists_eq_error_of_mapError h
    refine ⟨refused_take conn e, fun _ hk => ?_⟩
    rw [hk.decrypt_eq hkey] at he₀
    cases he₀
  rintro bytes c₄ ⟨rfl, hbytes⟩
  -- the length of the AES key
  cases haes : toAesKey bytes with
  | none =>
    refine Triple.throw ⟨refused_take conn _, fun aesKey hk => ?_⟩
    rw [hk.decrypt_eq hkey] at hbytes
    cases hbytes
    rw [toAesKey_toList] at haes
    cases haes
  | some aesKey =>
  -- the successful response, then the user and the cipher
  refine Triple.bind ((sendResponse_triple send _ _).mono (fun _ _ h => h) fun e _ h => ?_) ?_
  · obtain ⟨rfl, hsend⟩ := h
    exact ⟨refused_take conn e, fun _ _ => hsend⟩
  rintro _ c₅ ⟨hsend, rfl⟩
  refine Triple.bind (Triple.modify (Q := fun _ c' => c' =
    { conn with
      pendingAuthRequest := none
      userConfig := some userConfig
      sent := conn.sent ++ [authSuccess sessionId] }) rfl) ?_
  rintro _ c₆ rfl
  refine Triple.modify ⟨aesKey, ⟨huser, htime, hexpired, key, hkey, ?_⟩, hsend, rfl⟩
  rw [hbytes, toList_of_toAesKey haes]

/-- `authenticate` returns `Ok` exactly when the checks pass and the writer
takes the successful response. -/
theorem authenticate_eq_ok_iff (sessionId : String) (conn : ServerConnection)
    (hpending : conn.pendingAuthRequest = some authRequest) :
    ((authenticate parsers decodePem send proxyConfig userConfig currentTime sessionId).run.run
        conn).1 = .ok () ↔
      ∃ aesKey, Admits parsers decodePem proxyConfig userConfig currentTime authRequest aesKey ∧
        send (authSuccess sessionId) = .ok () := by
  have htriple := authenticate_triple parsers decodePem send proxyConfig userConfig currentTime
    sessionId conn hpending
  rcases hrun : (authenticate parsers decodePem send proxyConfig userConfig currentTime
    sessionId).run.run conn with ⟨_ | _, conn'⟩
  · obtain ⟨-, hrefused⟩ := htriple.of_run_error hrun
    refine ⟨fun h => (by cases h), ?_⟩
    rintro ⟨aesKey, hk, hsend⟩
    exact absurd hsend (hrefused aesKey hk)
  · obtain ⟨aesKey, hk, hsend, -⟩ := htriple.of_run_ok hrun
    exact ⟨fun _ => ⟨aesKey, hk, hsend⟩, fun _ => rfl⟩

/-- When the checks pass and the writer takes the response, `authenticate`
records the user and installs the cipher of the decrypted key. -/
theorem authenticate_run_of_admits (sessionId : String) (conn : ServerConnection)
    (hpending : conn.pendingAuthRequest = some authRequest) {aesKey : Vector UInt8 32}
    (hk : Admits parsers decodePem proxyConfig userConfig currentTime authRequest aesKey)
    (hsend : send (authSuccess sessionId) = .ok ()) :
    (authenticate parsers decodePem send proxyConfig userConfig currentTime sessionId).run.run
      conn = (.ok (), conn.authenticated userConfig aesKey sessionId) := by
  refine Triple.run_eq ((authenticate_triple parsers decodePem send proxyConfig userConfig
    currentTime sessionId conn hpending).mono ?_ fun _ _ h => h.2 aesKey hk hsend)
  rintro ⟨⟩ conn' ⟨aesKey', hk', -, rfl⟩
  rw [hk'.aesKey_eq hk]
  exact ⟨rfl, rfl⟩

end Spec

-- ---------------------------------------------------------------------------
-- The timestamp tests of the two handshakes
-- ---------------------------------------------------------------------------

section Timestamp

variable (parsers : TimeParsers) (config : ProxyConfig) (user : UserConfig)

/-- `validate_udp_auth` accepts exactly the requests of the user's name whose
timestamp is within the tolerance, clamped at zero, of the clock, while the
user has not expired. -/
theorem validateUdpAuth_eq_ok_iff (auth : UdpAuthInit) (now : Int64) :
    validateUdpAuth parsers config user auth now = .ok () ↔
      auth.username = user.username ∧
      |now.toInt - auth.timestamp.toInt| ≤ max config.replayAttackTolerance.toInt 0 ∧
      user.isExpiredAt parsers now = .ok false := by
  unfold validateUdpAuth
  by_cases huser : auth.username = user.username
  swap
  · exact iff_of_false (by simp [huser]) fun h => huser h.1
  by_cases htime : absDiff now auth.timestamp > (max config.replayAttackTolerance 0).toUInt64
  · exact iff_of_false (by simp [huser, htime])
      fun h => absurd (absDiff_gt_max_iff.mp htime) (not_lt.mpr h.2.1)
  have hnear := not_lt.mp (mt absDiff_gt_max_iff.mpr htime)
  cases hexpired : user.isExpiredAt parsers now with
  | error e => exact iff_of_false (by simp [huser, htime]) fun h => by cases h.2.2
  | ok expired =>
    cases expired with
    | true => exact iff_of_false (by simp [huser, htime]) fun h => by cases h.2.2
    | false => exact iff_of_true (by simp [huser, htime]; rfl) ⟨huser, hnear, rfl⟩

/-- The UDP test rejects what the TCP test rejects, and besides exactly the
timestamps `2^63` seconds from the clock, where `abs` wraps, and those
`2^64 - tolerance` or more away, where the subtraction wraps. -/
theorem udpTimestampExpired_iff {now timestamp tolerance : Int64} (htol : 0 ≤ tolerance) :
    absDiff now timestamp > (max tolerance 0).toUInt64 ↔
      (now - timestamp).abs > tolerance ∨ |now.toInt - timestamp.toInt| = 2 ^ 63 ∨
        2 ^ 64 ≤ |now.toInt - timestamp.toInt| + tolerance.toInt := by
  have htol' := htol
  rw [Int64.le_iff_toInt_le, Int64.toInt_zero] at htol'
  have := tolerance.toInt_lt
  rw [absDiff_gt_max_iff, abs_sub_gt_iff htol, max_eq_left htol']
  omega

/-- A 384-bit RSA public key with exponent 3. -/
def sampleUserKey : RsaPublicKey :=
  ⟨24969547057022307968486290937648804413101881033202579467872272279400929983799328572730087746040824504840166729169473,
    3⟩

/-- The AES key `1, 2, …, 32`. -/
def sampleAesKey : Vector UInt8 32 :=
  ⟨#[1, 2, 3, 4, 5, 6, 7, 8, 9, 10, 11, 12, 13, 14, 15, 16, 17, 18, 19, 20, 21, 22, 23, 24, 25, 26,
    27, 28, 29, 30, 31, 32], rfl⟩

/-- `encrypt_with_private_key` of `sampleAesKey` under the private half of
`sampleUserKey`. -/
def sampleEncryptedAesKey : List UInt8 :=
  [158, 163, 217, 4, 129, 81, 84, 49, 134, 191, 158, 250, 82, 35, 179, 100, 150, 219, 73, 161, 223,
    132, 85, 238, 49, 255, 154, 98, 205, 123, 180, 20, 222, 46, 225, 209, 64, 182, 222, 197, 113,
    116, 179, 170, 38, 147, 143, 188]

theorem wrapped_timestamp_authenticates (parsers : TimeParsers) :
    let user : UserConfig := ⟨"user", "user.pem", none⟩
    let request : AuthRequest := ⟨"user", 1700000000 + Int64.minValue, sampleEncryptedAesKey⟩
    let conn : ServerConnection := ⟨some request, none, ⟨none⟩, []⟩
    (authenticate parsers (fun _ => .ok sampleUserKey) (fun _ => .ok ()) ⟨300⟩ user 1700000000
        "1").run.run conn = (.ok (), conn.authenticated user sampleAesKey "1") ∧
      |(1700000000 : Int64).toInt - request.timestamp.toInt| = 2 ^ 63 ∧
      validateUdpAuth parsers ⟨300⟩ user ⟨"user", request.timestamp⟩ 1700000000 =
        .error (.authentication "Timestamp expired") := by
  intro user request conn
  have hadmits : Admits parsers (fun _ => .ok sampleUserKey) ⟨300⟩ user 1700000000 request
      sampleAesKey :=
    ⟨rfl, by decide, rfl, sampleUserKey, rfl, by decide⟩
  refine ⟨authenticate_run_of_admits parsers _ _ _ _ _ "1" conn rfl hadmits rfl, by decide +kernel,
    ?_⟩
  unfold validateUdpAuth
  rw [if_neg (by decide), if_pos (by decide)]
  rfl

end Timestamp

end Ppaass.Proxy
