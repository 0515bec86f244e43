import DarkEden.MemoryReader
import DarkEden.Protocol

namespace DarkEden

open Interaction Protocol

/-- What a user-mode program asks of the system; structures are passed as their images. -/
inductive UserOp
  | api (o : UserApi)
  | deviceIoControl (command : ULong) (input : Nat) (inputLength outputLength : ULong)

/-- `DeviceIoControl` fails with an error code, or has filled the output buffer with
`returned` bytes. -/
inductive IoctlResult
  | failed (code : DWord)
  | completed (output : Nat) (returned : DWord)
  deriving DecidableEq

@[reducible]
def UserAns : UserOp → Type
  | .api o => UserApiAns o
  | .deviceIoControl _ _ _ _ => IoctlResult

abbrev User := Program UserAns

/-- What a request function returns, what it leaves in `response`, and the error it stores. -/
structure Outcome (ρ : Type) where
  ok : Bool
  response : ρ
  error : Option WString

namespace Outcome

def fail {ρ : Type} (response : ρ) (error : WString) : Outcome ρ := ⟨false, response, some error⟩

def done {ρ : Type} (response : ρ) : Outcome ρ := ⟨true, response, none⟩

end Outcome

namespace Client

def createFileW (desiredAccess : DWord) : User (Option DWord) :=
  .ask (UserOp.api (.createFileW desiredAccess))

def queryDriverService : User DriverServiceStatus := .ask (UserOp.api .queryDriverService)

def deviceIoControl (command : ULong) (input : Nat) (inputLength outputLength : ULong) :
    User IoctlResult := .ask (UserOp.deviceIoControl command input inputLength outputLength)

def genericRead : DWord := 0x80000000
def genericWrite : DWord := 0x40000000

def errorSuccess : DWord := 0
def errorFileNotFound : DWord := 2
def errorPathNotFound : DWord := 3
def errorAccessDenied : DWord := 5
def errorInvalidParameter : DWord := 87
def errorFailedDriverEntry : DWord := 647
def errorServiceDoesNotExist : DWord := 1060
def errorServiceSpecificError : DWord := 1066
def errorRevisionMismatch : DWord := 1306
def serviceStopped : DWord := 1
def serviceRunning : DWord := 4

section Messages

def upperHexDigit (d : Nat) : WChar := if d < 10 then 0x30 + d else 0x37 + d

def hex (value width : Nat) : WString :=
  let digits := if value = 0 then [0x30] else (Nat.digits 16 value).reverse.map upperHexDigit
  wide "0x" ++ List.replicate (width - digits.length) 0x30 ++ digits

def toWString (n : Nat) : WString := wide (toString n)

def trimRight (iswspace : WChar → Bool) (text : WString) : WString :=
  (text.reverse.dropWhile iswspace).reverse

def windowsError (sys : Platform) (code : DWord) : WString :=
  wide "Win32 " ++ toWString code.toNat ++ wide " (" ++ hex code.toNat 8 ++ wide "): " ++
    trimRight sys.iswspace (sys.formatMessageW code)

def statusMessage (status : NtStatus) : WString :=
  if status = 0xC0000022 then wide "커널에서 대상 프로세스 접근이 거부되었습니다. 요청 권한: 0x00001010."
  else if status = 0xC000000B then
    wide "대상 PID가 유효하지 않습니다. 프로세스 목록을 새로고침하세요."
  else if status = 0xC0000008 then wide "프로세스 핸들이 유효하지 않습니다."
  else if status = 0xC000000D then wide "잘못된 주소 또는 요청입니다."
  else if status = 0xC0000141 then wide "포인터가 0이거나 주소가 유효하지 않습니다."
  else if status = 0xC0000095 then wide "주소 계산이 포인터 범위를 초과했습니다."
  else if status = 0x8000000D then
    wide "메모리를 전부 읽지 못했습니다. 주소와 프로세스 상태를 확인하세요."
  else if status = 0xC0000005 then wide "메모리 접근 예외가 발생했습니다."
  else if status = 0xC000010A then wide "대상 프로세스가 종료 중입니다."
  else if status = 0xC0000024 then wide "프로세스 핸들이 아닌 핸들이 전달되었습니다."
  else if status = 0xC0000034 then wide "대상 프로세스의 이미지 이름을 찾을 수 없습니다."
  else if status = 0xC0000033 then wide "대상 프로세스가 darkeden.exe가 아닙니다."
  else if status = 0xC0000225 then wide "해당 ID의 캐릭터가 현재 주변 목록에 없습니다."
  else if status = 0xC0000059 then
    wide "게임의 선택 구조 또는 드라이버 버전이 일치하지 않습니다."
  else wide "커널 읽기 요청에 실패했습니다. NTSTATUS를 확인하세요."

def serviceHint (sys : Platform) (service : DriverServiceStatus) : WString :=
  if service.queryError = errorServiceDoesNotExist then
    wide "DarkEdenReader 서비스가 설치되지 않았습니다. 서명된 드라이버를 설치하세요.\r\n"
  else if service.queryError ≠ errorSuccess then
    wide "드라이버 장치를 찾을 수 없습니다. 서비스 상태 조회 실패: " ++
      windowsError sys service.queryError ++ wide "\r\n"
  else if service.state = serviceStopped then
    wide "드라이버 서비스는 설치되어 있지만 중지 상태입니다.\r\n" ++
      (if service.win32ExitCode ≠ errorSuccess then
        wide "마지막 서비스 오류: " ++ windowsError sys service.win32ExitCode ++ wide "\r\n"
      else []) ++
      (if service.win32ExitCode = errorServiceSpecificError then
        wide "서비스 고유 오류: " ++ hex service.serviceSpecificExitCode.toNat 8 ++ wide "\r\n"
      else []) ++
      (if service.win32ExitCode = errorFailedDriverEntry then
        wide "드라이버 초기화에 실패했습니다. 설치·재부팅 반복 전에 로드 진단 결과를 확인하세요.\r\n"
      else if service.win32ExitCode = errorSuccess then
        wide "관리자 권한으로 드라이버 서비스를 시작하세요.\r\n"
      else [])
  else if service.state = serviceRunning then
    wide "서비스는 실행 중이지만 통신 장치를 찾을 수 없습니다. 설치된 드라이버 버전과 초기화 기록을 확인하세요.\r\n"
  else wide "드라이버 서비스가 상태 전환 중입니다. 잠시 후 다시 확인하세요.\r\n"

def formatDeviceError (sys : Platform) (code : DWord) (service : DriverServiceStatus) : WString :=
  let hint :=
    if code = errorFileNotFound ∨ code = errorPathNotFound then serviceHint sys service
    else if code = errorAccessDenied then
      wide "드라이버 연결 권한이 없습니다. GUI를 관리자 권한으로 실행하세요.\r\n"
    else wide "드라이버 연결 실패.\r\n"
  hint ++ windowsError sys code

def deviceError (sys : Platform) (code : DWord) : User WString :=
  if code = errorFileNotFound ∨ code = errorPathNotFound then do
    let service ← queryDriverService
    return formatDeviceError sys code service
  else return formatDeviceError sys code ⟨errorSuccess, 0, 0, 0⟩

theorem deviceError_api (sys : Platform) (code : DWord) :
    Uses (fun o => ∃ a, o = UserOp.api a) (deviceError sys code) :=
  uses_ite (fun _ => uses_bind (uses_ask ⟨_, rfl⟩) fun _ => uses_pure _) fun _ => uses_pure _

def statusError (separator : String) (status : NtStatus) : WString :=
  statusMessage status ++ wide separator ++ wide "NTSTATUS " ++ hex status.toNat 8

end Messages

def emptyResponse : Response := .decode 0
def emptyTextResponse : TextResponse := .decode 0

def validResponse (request : Request) (response : Response) (bytes : DWord) : Bool :=
  let expected : ULong :=
    if request.reserved = 5 then 4 else if request.axis = Axis.both then 8 else 4
  if bytes ≠ sizeofResponse ∨ response.version ≠ version ∨ response.size ≠ sizeofResponse ∨
      response.axis ≠ request.axis ∨ response.valueType ≠ request.valueType then false
  else if response.bytesRead > expected ∨
      ntSuccess response.status ∧ response.bytesRead ≠ expected then false
  else if !ntSuccess response.status ∧ (response.xBits ≠ 0 ∨ response.yBits ≠ 0) then false
  else if request.axis = Axis.x ∧ response.yBits ≠ 0 then false
  else if request.axis = Axis.y ∧ response.xBits ≠ 0 then false
  else true

def validTextResponse (request : TextRequest) (response : TextResponse) (bytes : DWord) : Bool :=
  bytes = sizeofTextResponse ∧ response.version = version ∧ response.size = sizeofTextResponse ∧
    response.bytesRead ≤ 256 ∧ response.bytesRead % request.characterBytes = 0 ∧
    response.terminated ≤ 1

def validSelectTargetResponse (response : SelectTargetResponse) (bytes : DWord) : Bool :=
  bytes = sizeofSelectTargetResponse ∧ response.version = version ∧
    response.size = sizeofSelectTargetResponse

section Replies

variable (sys : Platform)

def readReply (request : Request) : IoctlResult → Outcome Response
  | .failed code => .fail emptyResponse <| wide "드라이버 통신 실패.\r\n" ++ windowsError sys code ++
      if code = errorRevisionMismatch ∨ code = errorInvalidParameter then
        wide "\r\nGUI와 드라이버를 모두 최신 빌드로 맞추세요. 이전 드라이버는 선택한 읽기 방식을 지원하지 않을 수 있습니다."
      else []
  | .completed output returned =>
    let response := Response.decode output
    if !validResponse request response returned then .fail emptyResponse
      (wide "드라이버 응답 형식이 올바르지 않습니다. GUI와 드라이버 버전을 맞추세요.")
    else if !ntSuccess response.status then .fail response <|
      statusError "\r\n" response.status ++ wide " / 최종 읽기 " ++
        toWString response.bytesRead.toNat ++ wide " 바이트"
    else .done response

def read (pid : DWord) (request : Request) : User (Outcome Response) := do
  match ← createFileW genericRead with
  | some code =>
    let error ← deviceError sys code
    return .fail emptyResponse error
  | none =>
    let request := { request with processId := pid.setWidth 64 }
    if !validRequest request then
      return .fail emptyResponse (wide "유효하지 않은 좌표 요청입니다.")
    let reply ← deviceIoControl readCoordinates request.encode sizeofRequest sizeofResponse
    return readReply sys request reply

/-- The ways through `Read`: the device does not open, the request is invalid, or the driver is
asked. -/
theorem wp_read_of {C : Contract UserAns} {pid : DWord} {request : Request} {l : Log UserAns}
    {Q : Outcome Response → Log UserAns → Prop}
    (hopen : C.guar l (.api (.createFileW genericRead)))
    (hclosed : ∀ code, C.rely l (.api (.createFileW genericRead)) (some code) →
      wp C (deviceError sys code) (l ++ [⟨.api (.createFileW genericRead), some code⟩])
        fun error l' => Q (.fail emptyResponse error) l')
    (hinvalid : C.rely l (.api (.createFileW genericRead)) none →
      ¬validRequest { request with processId := pid.setWidth 64 } → ∀ error l',
        Q (.fail emptyResponse error) l')
    (hvalid : C.rely l (.api (.createFileW genericRead)) none →
      validRequest { request with processId := pid.setWidth 64 } →
      wp C (deviceIoControl readCoordinates
          { request with processId := pid.setWidth 64 : Request }.encode sizeofRequest
          sizeofResponse) (l ++ [⟨.api (.createFileW genericRead), none⟩]) fun reply l' =>
        Q (readReply sys { request with processId := pid.setWidth 64 } reply) l') :
    wp C (read sys pid request) l Q := by
  rw [read]
  refine wp_ask_bind.mpr ⟨hopen, fun opened hopened => ?_⟩
  cases opened with
  | some code =>
    change wp C (deviceError sys code >>= _) _ _
    rw [wp_bind]
    exact hclosed code hopened
  | none =>
    change wp C (ite _ _ _) _ _
    rw [wp_ite]
    refine ⟨fun hbad => hinvalid hopened (by simpa using hbad) _ _, fun hgood => ?_⟩
    change wp C (deviceIoControl _ _ _ _ >>= _) _ _
    rw [wp_bind]
    exact hvalid hopened (by simpa using hgood)

def readTextReply (request : TextRequest) : IoctlResult → Outcome TextResponse
  | .failed code => .fail emptyTextResponse <|
      wide "문자열 읽기 통신 실패. 새 드라이버가 설치되어 있는지 확인하세요. " ++ windowsError sys code
  | .completed output returned =>
    let response := TextResponse.decode output
    if !validTextResponse request response returned then .fail emptyTextResponse
      (wide "문자열 응답 형식이 올바르지 않습니다.")
    else if !ntSuccess response.status then .fail response (statusError " " response.status)
    else .done response

def readText (pid : DWord) (request : TextRequest) : User (Outcome TextResponse) := do
  let request := { request with processId := pid.setWidth 64 }
  if !validTextRequest request then
    return .fail emptyTextResponse (wide "유효하지 않은 문자열 요청입니다.")
  match ← createFileW genericRead with
  | some code =>
    let error ← deviceError sys code
    return .fail emptyTextResponse error
  | none =>
    let reply ← deviceIoControl Protocol.readText request.encode sizeofTextRequest
      sizeofTextResponse
    return readTextReply sys request reply

/-- `SelectNearbyTarget` keeps the response to itself. -/
def selectReply (targetId : ULong) : IoctlResult → Outcome Unit
  | .failed code => .fail () <|
      wide "선택 요청 통신 실패. 드라이버를 새 버전으로 설치하세요. " ++ windowsError sys code
  | .completed output returned =>
    let response := SelectTargetResponse.decode output
    if !validSelectTargetResponse response returned then .fail ()
      (wide "선택 응답 형식이 올바르지 않습니다. 앱과 드라이버 버전을 맞추세요.")
    else if !ntSuccess response.status ∨ response.selectedId ≠ targetId then
      .fail () (statusError " " response.status)
    else .done ()

def selectNearbyTarget (pid : DWord) (targetId : ULong) : User (Outcome Unit) := do
  let request : SelectTargetRequest :=
    ⟨version, sizeofSelectTargetRequest, pid.setWidth 64, targetId, 0⟩
  if !validSelectTargetRequest request then
    return .fail () (wide "캐릭터 ID가 올바르지 않습니다.")
  match ← createFileW (genericRead ||| genericWrite) with
  | some code =>
    let error ← deviceError sys code
    return .fail () error
  | none =>
    let reply ← deviceIoControl selectTarget request.encode sizeofSelectTargetRequest
      sizeofSelectTargetResponse
    return selectReply sys targetId reply

end Replies

end Client

end DarkEden
