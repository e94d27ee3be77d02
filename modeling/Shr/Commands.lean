/-
The command line, and what a command does before it gets to its work.

`main` takes the arguments apart.  `install` writes the identity; most of the
other commands begin with `init_app`, which loads the configuration and the
identity and opens the database and the keys.
-/

import Shr.Install
import Shr.Ports

namespace Shr

/-! ### The command line -/

inductive Command where
  | usage
  | version
  | install
  | whoami
  | config
  | send (filepath recipientId : Bytes)
  | receive
  | msg (recipientId message : Bytes)
  | inbox (page : Int32)
  | peers
  | discover
  | connect (peerId ip : Bytes) (port : UInt16)
  | status
  | clean
  | incomplete (cmd : Bytes)
  | unknown (cmd : Bytes)
deriving DecidableEq

namespace Command

def inboxPage (pageArg : Option Bytes) : Int32 :=
  let page :=
    match pageArg with
    | some text => atoi text
    | none => 1
  if page < 1 then 1 else page

/-- `main`, of the arguments behind `argv[0]`. -/
def ofArguments : List Bytes → Command
  | [] => .usage
  | cmd :: arguments =>
      if cmd = ascii "install" then .install
      else if cmd = ascii "--help" ∨ cmd = ascii "-h" ∨ cmd = ascii "help" then .usage
      else if cmd = ascii "--version" ∨ cmd = ascii "-v" then .version
      else if cmd = ascii "whoami" then .whoami
      else if cmd = ascii "config" then .config
      else if cmd = ascii "send" then
        match arguments with
        | filepath :: recipientId :: _ => .send filepath recipientId
        | _ => .incomplete cmd
      else if cmd = ascii "receive" then .receive
      else if cmd = ascii "msg" then
        match arguments with
        | recipientId :: word :: words =>
            .msg recipientId ((ascii " ").intercalate (word :: words))
        | _ => .incomplete cmd
      else if cmd = ascii "inbox" then .inbox (inboxPage arguments.head?)
      else if cmd = ascii "peers" then .peers
      else if cmd = ascii "discover" then .discover
      else if cmd = ascii "connect" then
        match arguments with
        | peerId :: ip :: options => .connect peerId ip (connectPort options.head?)
        | _ => .incomplete cmd
      else if cmd = ascii "status" then .status
      else if cmd = ascii "clean" then .clean
      else .unknown cmd

def callsInitApp : Command → Bool
  | .whoami | .send _ _ | .receive | .msg _ _ | .inbox _ | .peers | .discover
  | .connect _ _ _ | .status | .clean => true
  | .usage | .version | .install | .config | .incomplete _ | .unknown _ => false

theorem inboxPage_pos (pageArg : Option Bytes) : 1 ≤ inboxPage pageArg := by
  have raised : ∀ page : Int32, 1 ≤ if page < 1 then 1 else page := by
    intro page
    split
    next => decide
    next notBelow => exact Int32.not_lt.mp notBelow
  exact raised _

end Command

/-! ### Starting up -/

section StartUp

variable (library : JsonLibrary) (home : Home) (env : Environment) (world : InstallWorld)

/-- `init_app`: what it returns, `none` where it throws, and what it leaves. -/
def initApp (requireInstall : Bool) (disk : Disk) : Option Bool × Process × Disk :=
  let process := loadedProcess library home env world disk
  if (loadConfig library home env world.readable disk.config .zero).1 = false then
    (some false, process, disk)
  else if requireInstall = true ∧ process.cfg.isInstalled = false then
    (some false, process, disk)
  else if process.cfg.isInstalled = true then
    let process := { process with id := process.cfg.userId }
    if world.opensDb = false then (some false, process, disk)
    else
      let opened := loadOrGenerateKeypair world.keys world.drawn disk.keys process.crypto
      (opened.1, { process with crypto := opened.2.2 }, { disk with keys := opened.2.1 })
  else (some true, process, disk)

/-- `cmd_config`, which loads the configuration once more where `init_app` fails. -/
def cmdConfig (readableAgain : Bool) (disk : Disk) : Option Int × Process × Disk :=
  let started := initApp library home env world false disk
  match started.1 with
  | none => (none, started.2)
  | some true => (some 0, started.2)
  | some false =>
      let cfg := (loadConfig library home env readableAgain disk.config started.2.1.cfg).2
      (some 0, { started.2.1 with cfg := cfg }, started.2.2)

end StartUp

/-! ### Processes -/

structure Launch where
  arguments : List Bytes
  env : Environment
  world : InstallWorld
  readableAgain : Bool

structure Session where
  userId : Bytes
  keypair : Option KeyPair

def Process.session (process : Process) (userId : Bytes) : Session :=
  { userId := userId
    keypair := if process.crypto.loaded then some process.crypto.keypair else none }

namespace Launch

variable (library : JsonLibrary) (home : Home) (launch : Launch) (disk : Disk)

def command : Command :=
  Command.ofArguments launch.arguments

/-- What a process leaves of the configuration and the keys: nothing but
`cmd_install` and `init_app` writes them. -/
def leaves : Disk :=
  match launch.command with
  | .install => (cmdInstall library home launch.env launch.world disk).2.2
  | .config => (cmdConfig library home launch.env launch.world launch.readableAgain disk).2.2
  | command =>
      if command.callsInitApp = true then
        (initApp library home launch.env launch.world true disk).2.2
      else disk

/-- The session of a process: the identity that `install` and `config` show, or
the one under which a command goes to work. -/
def session : Option Session :=
  match launch.command with
  | .install =>
      let done := cmdInstall library home launch.env launch.world disk
      if done.1 = some 0 then some (done.2.1.session done.2.1.cfg.userId) else none
  | .config =>
      let done := cmdConfig library home launch.env launch.world launch.readableAgain disk
      if done.1 = some 0 ∧ done.2.1.cfg.isInstalled = true then
        some (done.2.1.session done.2.1.cfg.userId)
      else none
  | command =>
      if command.callsInitApp = true then
        let started := initApp library home launch.env launch.world true disk
        if started.1 = some true then some (started.2.1.session started.2.1.id) else none
      else none

end Launch

end Shr
