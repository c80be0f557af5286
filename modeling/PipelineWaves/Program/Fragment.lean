import PipelineWaves.Program.Template

/-!
# Program fragments

The fixed text of a generated program and of its package manifest. Placeholders
mark where the tables and names of a pipeline go. The program runs its waves with
the rules of this library's own runs.
-/

set_option autoImplicit false

namespace PipelineWaves.ProgramFragment

/-- Types, tables and conditions. -/
def declarationLines : List String :=
  ["// Generated by stepforge from pipeline: \x7b\x7b pipeline_comment \x7d\x7d",
    "// Regenerate from the pipeline definition instead of editing this file.",
    "#![allow(dead_code)]",
    "",
    "use std::fs;",
    "#[cfg(unix)]",
    "use std::os::unix::process::CommandExt;",
    "use std::path::\x7bPath, PathBuf\x7d;",
    "use std::process::\x7bCommand, ExitCode\x7d;",
    "use std::time::\x7bDuration, Instant\x7d;",
    "",
    "const PIPELINE_NAME: &str = \x7b\x7b pipeline_name \x7d\x7d;",
    "const DEFAULT_TOOLCHAIN: &str = \x7b\x7b default_toolchain \x7d\x7d;",
    "const HANDLER_PREFIX: &str = \x7b\x7b handler_prefix \x7d\x7d;",
    "const APP_NAME: &str = \x7b\x7b app_name \x7d\x7d;",
    "",
    "#[derive(Clone, Copy, Debug, PartialEq, Eq)]",
    "enum Outcome \x7b",
    "    Success,",
    "    Failed,",
    "    Skipped,",
    "\x7d",
    "",
    "impl Outcome \x7b",
    "    fn label(self) -> &'static str \x7b",
    "        match self \x7b",
    "            Outcome::Success => \"success\",",
    "            Outcome::Failed => \"failed\",",
    "            Outcome::Skipped => \"skipped\",",
    "        \x7d",
    "    \x7d",
    "\x7d",
    "",
    "enum Action \x7b",
    "    Shell \x7b",
    "        command: &'static str,",
    "        working_dir: Option<&'static str>,",
    "    \x7d,",
    "    Compile \x7b",
    "        source_file: &'static str,",
    "        output_name: &'static str,",
    "        optimize: &'static str,",
    "    \x7d,",
    "    TestRun \x7b",
    "        test_file: &'static str,",
    "        filter: Option<&'static str>,",
    "    \x7d,",
    "    Checkout \x7b",
    "        repository: &'static str,",
    "        branch: &'static str,",
    "        path: &'static str,",
    "    \x7d,",
    "    Artifact \x7b",
    "        source_path: &'static str,",
    "        destination: &'static str,",
    "    \x7d,",
    "    CacheSave \x7b",
    "        key: &'static str,",
    "        paths: &'static [&'static str],",
    "        cache_dir: Option<&'static str>,",
    "    \x7d,",
    "    CacheRestore \x7b",
    "        key: &'static str,",
    "        cache_dir: Option<&'static str>,",
    "    \x7d,",
    "    Custom \x7b",
    "        type_name: &'static str,",
    "        parameters: &'static [(&'static str, &'static str)],",
    "    \x7d,",
    "\x7d",
    "",
    "struct Step \x7b",
    "    id: &'static str,",
    "    name: &'static str,",
    "    /// Pipeline environment merged with the step's overrides",
    "    env: &'static [(&'static str, &'static str)],",
    "    action: Action,",
    "\x7d",
    "",
    "const STEPS: &[Step] = &[",
    "\x7b\x7b steps \x7d\x7d",
    "];",
    "",
    "/// Step indices per wave",
    "const WAVES: &[&[usize]] = &[",
    "\x7b\x7b waves \x7d\x7d",
    "];",
    "",
    "/// Transitive dependents of each step",
    "const DEPENDENTS: &[&[usize]] = &[",
    "\x7b\x7b dependents \x7d\x7d",
    "];",
    "",
    "fn env_get(env: &'static [(&'static str, &'static str)], key: &str) -> &'static str \x7b",
    "    env.iter()",
    "        .find(|(k, _)| *k == key)",
    "        .map(|(_, v)| *v)",
    "        .unwrap_or(\"\")",
    "\x7d",
    "",
    "fn truthy(value: &str) -> bool \x7b",
    "    !value.is_empty() && value != \"false\" && value != \"0\"",
    "\x7d",
    "",
    "fn condition(",
    "    index: usize,",
    "    env: &'static [(&'static str, &'static str)],",
    "    outcomes: &[Option<Outcome>],",
    ") -> bool \x7b",
    "    let _ = (env, outcomes);",
    "    match index \x7b",
    "\x7b\x7b conditions \x7d\x7d",
    "        _ => true,",
    "    \x7d",
    "\x7d",
    ""]

/-- Processes and what they leave behind. -/
def processLines : List String :=
  ["struct Runtime \x7b",
    "    workspace: PathBuf,",
    "    toolchain: String,",
    "\x7d",
    "",
    "impl Runtime \x7b",
    "    fn command(&self, program: &str, env: &[(&str, &str)]) -> Command \x7b",
    "        let mut cmd = Command::new(program);",
    "        cmd.current_dir(&self.workspace).envs(env.iter().copied());",
    "        // Steps finish even if the terminal sends an interrupt",
    "        #[cfg(unix)]",
    "        cmd.process_group(0);",
    "        cmd",
    "    \x7d",
    "",
    "    fn cache_root(&self, cache_dir: Option<&str>) -> PathBuf \x7b",
    "        match cache_dir \x7b",
    "            Some(dir) if !dir.trim().is_empty() => self.workspace.join(dir),",
    "            _ => std::env::var_os(\"HOME\")",
    "                .filter(|home| !home.is_empty())",
    "                .map(PathBuf::from)",
    "                .unwrap_or_else(|| self.workspace.clone())",
    "                .join(\".cache\")",
    "                .join(APP_NAME),",
    "        \x7d",
    "    \x7d",
    "\x7d",
    "",
    "#[derive(Default)]",
    "struct Log \x7b",
    "    stdout: String,",
    "    stderr: String,",
    "\x7d",
    "",
    "struct StepRun \x7b",
    "    outcome: Outcome,",
    "    stdout: String,",
    "    stderr: String,",
    "    detail: Option<String>,",
    "    duration: Duration,",
    "\x7d",
    "",
    "impl StepRun \x7b",
    "    fn aborted() -> Self \x7b",
    "        StepRun \x7b",
    "            outcome: Outcome::Failed,",
    "            stdout: String::new(),",
    "            stderr: String::new(),",
    "            detail: Some(\"step thread panicked\".to_string()),",
    "            duration: Duration::ZERO,",
    "        \x7d",
    "    \x7d",
    "\x7d",
    "",
    "fn capture(cmd: &mut Command, log: &mut Log) -> Result<(), String> \x7b",
    "    let program = cmd.get_program().to_string_lossy().into_owned();",
    "    let output = cmd",
    "        .output()",
    "        .map_err(|e| format!(\"failed to spawn '\x7b\x7d': \x7b\x7d\", program, e))?;",
    "    log.stdout.push_str(&String::from_utf8_lossy(&output.stdout));",
    "    log.stderr.push_str(&String::from_utf8_lossy(&output.stderr));",
    "    if output.status.success() \x7b",
    "        Ok(())",
    "    \x7d else \x7b",
    "        Err(format!(",
    "            \"process exited with code \x7b\x7d\",",
    "            output.status.code().unwrap_or(-1)",
    "        ))",
    "    \x7d",
    "\x7d",
    ""]

/-- Cache keys, copies and checkouts. -/
def fileLines : List String :=
  ["fn check_key(key: &str) -> Result<(), String> \x7b",
    "    if key.trim().is_empty() || key.contains('/') || key.contains('\\\\') || key.contains(\"..\") \x7b",
    "        return Err(format!(\"invalid value for parameter 'key': \x7b:?\x7d\", key));",
    "    \x7d",
    "    Ok(())",
    "\x7d",
    "",
    "fn copy_recursive(source: &Path, destination: &Path) -> Result<(), String> \x7b",
    "    let fs_error = |path: &Path, e: std::io::Error| format!(\"filesystem error at \x7b\x7d: \x7b\x7d\", path.display(), e);",
    "    let meta = fs::metadata(source).map_err(|e| fs_error(source, e))?;",
    "    if meta.is_dir() \x7b",
    "        fs::create_dir_all(destination).map_err(|e| fs_error(destination, e))?;",
    "        for entry in fs::read_dir(source).map_err(|e| fs_error(source, e))? \x7b",
    "            let entry = entry.map_err(|e| fs_error(source, e))?;",
    "            copy_recursive(&entry.path(), &destination.join(entry.file_name()))?;",
    "        \x7d",
    "        return Ok(());",
    "    \x7d",
    "    let target = match source.file_name() \x7b",
    "        Some(name) if destination.is_dir() => destination.join(name),",
    "        _ => destination.to_path_buf(),",
    "    \x7d;",
    "    if let Some(parent) = target.parent() \x7b",
    "        fs::create_dir_all(parent).map_err(|e| fs_error(parent, e))?;",
    "    \x7d",
    "    fs::copy(source, &target).map_err(|e| fs_error(&target, e))?;",
    "    Ok(())",
    "\x7d",
    "",
    "fn checkout(",
    "    rt: &Runtime,",
    "    env: &[(&str, &str)],",
    "    repository: &str,",
    "    branch: &str,",
    "    path: &str,",
    "    log: &mut Log,",
    ") -> Result<(), String> \x7b",
    "    let target = rt.workspace.join(path);",
    "    if target.join(\".git\").exists() \x7b",
    "        let head = rt",
    "            .command(\"git\", env)",
    "            .args([\"rev-parse\", \"--abbrev-ref\", \"HEAD\"])",
    "            .current_dir(&target)",
    "            .output()",
    "            .map_err(|e| format!(\"failed to spawn 'git': \x7b\x7d\", e))?;",
    "        if head.status.success() && String::from_utf8_lossy(&head.stdout).trim() == branch \x7b",
    "            return Ok(());",
    "        \x7d",
    "        capture(",
    "            rt.command(\"git\", env)",
    "                .args([\"fetch\", \"origin\", branch])",
    "                .current_dir(&target),",
    "            log,",
    "        )?;",
    "        return capture(",
    "            rt.command(\"git\", env)",
    "                .args([\"checkout\", branch])",
    "                .current_dir(&target),",
    "            log,",
    "        );",
    "    \x7d",
    "",
    "    let occupied = target.exists()",
    "        && (!target.is_dir()",
    "            || fs::read_dir(&target)",
    "                .map(|mut entries| entries.next().is_some())",
    "                .unwrap_or(true));",
    "    if occupied \x7b",
    "        return Err(format!(",
    "            \"filesystem error at \x7b\x7d: path exists and is not a git repository\",",
    "            target.display()",
    "        ));",
    "    \x7d",
    "    if let Some(parent) = target.parent() \x7b",
    "        fs::create_dir_all(parent).map_err(|e| e.to_string())?;",
    "    \x7d",
    "    capture(",
    "        rt.command(\"git\", env)",
    "            .args([\"clone\", \"--branch\", branch, \"--single-branch\", repository])",
    "            .arg(&target),",
    "        log,",
    "    )",
    "\x7d",
    ""]

/-- What each action does. -/
def actionLines : List String :=
  ["fn run_action(rt: &Runtime, step: &Step, log: &mut Log) -> Result<(), String> \x7b",
    "    let env = step.env;",
    "    match step.action \x7b",
    "        Action::Shell \x7b",
    "            command,",
    "            working_dir,",
    "        \x7d => \x7b",
    "            let mut cmd = rt.command(\"sh\", env);",
    "            cmd.args([\"-c\", command]);",
    "            if let Some(dir) = working_dir \x7b",
    "                cmd.current_dir(rt.workspace.join(dir));",
    "            \x7d",
    "            capture(&mut cmd, log)",
    "        \x7d",
    "        Action::Compile \x7b",
    "            source_file,",
    "            output_name,",
    "            optimize,",
    "        \x7d => capture(",
    "            rt.command(&rt.toolchain, env).args([",
    "                \"build-exe\",",
    "                source_file,",
    "                \"-O\",",
    "                optimize,",
    "                \"--name\",",
    "                output_name,",
    "            ]),",
    "            log,",
    "        ),",
    "        Action::TestRun \x7b test_file, filter \x7d => \x7b",
    "            let mut cmd = rt.command(&rt.toolchain, env);",
    "            cmd.args([\"test\", test_file]);",
    "            if let Some(filter) = filter \x7b",
    "                cmd.args([\"--test-filter\", filter]);",
    "            \x7d",
    "            capture(&mut cmd, log)",
    "        \x7d",
    "        Action::Checkout \x7b",
    "            repository,",
    "            branch,",
    "            path,",
    "        \x7d => checkout(rt, env, repository, branch, path, log),",
    "        Action::Artifact \x7b",
    "            source_path,",
    "            destination,",
    "        \x7d => copy_recursive(",
    "            &rt.workspace.join(source_path),",
    "            &rt.workspace.join(destination),",
    "        ),",
    "        Action::CacheSave \x7b",
    "            key,",
    "            paths,",
    "            cache_dir,",
    "        \x7d => \x7b",
    "            check_key(key)?;",
    "            let present: Vec<&str> = paths",
    "                .iter()",
    "                .copied()",
    "                .filter(|p| \x7b",
    "                    let exists = rt.workspace.join(p).exists();",
    "                    if !exists \x7b",
    "                        eprintln!(\"warning: cache '\x7b\x7d': skipping missing path \x7b\x7d\", key, p);",
    "                    \x7d",
    "                    exists",
    "                \x7d)",
    "                .collect();",
    "            if present.is_empty() \x7b",
    "                return Ok(());",
    "            \x7d",
    "            let root = rt.cache_root(cache_dir);",
    "            fs::create_dir_all(&root).map_err(|e| e.to_string())?;",
    "            let mut cmd = rt.command(\"tar\", env);",
    "            cmd.arg(\"-czf\")",
    "                .arg(root.join(format!(\"\x7b\x7d.tar.gz\", key)))",
    "                .arg(\"-C\")",
    "                .arg(&rt.workspace)",
    "                .args(&present);",
    "            capture(&mut cmd, log)",
    "        \x7d",
    "        Action::CacheRestore \x7b key, cache_dir \x7d => \x7b",
    "            check_key(key)?;",
    "            let archive = rt.cache_root(cache_dir).join(format!(\"\x7b\x7d.tar.gz\", key));",
    "            if !archive.is_file() \x7b",
    "                return Ok(());",
    "            \x7d",
    "            let mut cmd = rt.command(\"tar\", env);",
    "            cmd.arg(\"-xzf\").arg(&archive).arg(\"-C\").arg(&rt.workspace);",
    "            capture(&mut cmd, log)",
    "        \x7d",
    "        Action::Custom \x7b",
    "            type_name,",
    "            parameters,",
    "        \x7d => \x7b",
    "            let mut cmd = rt.command(&format!(\"\x7b\x7d\x7b\x7d\", HANDLER_PREFIX, type_name), env);",
    "            for (key, value) in parameters \x7b",
    "                cmd.arg(format!(\"--\x7b\x7d=\x7b\x7d\", key, value));",
    "            \x7d",
    "            capture(&mut cmd, log)",
    "        \x7d",
    "    \x7d",
    "\x7d",
    ""]

def schedulerLines : List String :=
  ["fn run_step(rt: &Runtime, step: &Step) -> StepRun \x7b",
    "    let started = Instant::now();",
    "    let mut log = Log::default();",
    "    let result = run_action(rt, step, &mut log);",
    "    StepRun \x7b",
    "        outcome: if result.is_ok() \x7b",
    "            Outcome::Success",
    "        \x7d else \x7b",
    "            Outcome::Failed",
    "        \x7d,",
    "        stdout: log.stdout,",
    "        stderr: log.stderr,",
    "        detail: result.err(),",
    "        duration: started.elapsed(),",
    "    \x7d",
    "\x7d",
    "",
    "fn report_skip(step: &Step, reason: &str) \x7b",
    "    println!(\"[skipped] \x7b\x7d: \x7b\x7d\", step.id, reason);",
    "\x7d",
    "",
    "fn report_run(step: &Step, run: &StepRun) \x7b",
    "    println!(",
    "        \"[\x7b\x7d] \x7b\x7d (\x7b:.2\x7ds)\",",
    "        run.outcome.label(),",
    "        step.id,",
    "        run.duration.as_secs_f64()",
    "    );",
    "    if run.outcome == Outcome::Failed \x7b",
    "        if let Some(detail) = &run.detail \x7b",
    "            println!(\"  error: \x7b\x7d\", detail);",
    "        \x7d",
    "        for line in run.stderr.lines() \x7b",
    "            println!(\"  | \x7b\x7d\", line);",
    "        \x7d",
    "    \x7d",
    "\x7d",
    "",
    "fn concurrency_limit() -> Option<usize> \x7b",
    "    std::env::var(\"STEPFORGE_CONCURRENCY\")",
    "        .ok()",
    "        .and_then(|value| value.trim().parse::<usize>().ok())",
    "        .filter(|limit| *limit > 0)",
    "\x7d",
    "",
    "fn main() -> ExitCode \x7b",
    "    let workspace = match std::env::current_dir() \x7b",
    "        Ok(dir) => dir,",
    "        Err(e) => \x7b",
    "            eprintln!(\"error: cannot determine working directory: \x7b\x7d\", e);",
    "            return ExitCode::FAILURE;",
    "        \x7d",
    "    \x7d;",
    "    let toolchain = std::env::var(\"STEPFORGE_TOOLCHAIN\")",
    "        .ok()",
    "        .filter(|t| !t.is_empty())",
    "        .unwrap_or_else(|| DEFAULT_TOOLCHAIN.to_string());",
    "    let rt = Runtime \x7b",
    "        workspace,",
    "        toolchain,",
    "    \x7d;",
    "    let limit = concurrency_limit();",
    "",
    "    println!(",
    "        \"Running pipeline \x7b\x7d (\x7b\x7d steps in \x7b\x7d waves)\",",
    "        PIPELINE_NAME,",
    "        STEPS.len(),",
    "        WAVES.len()",
    "    );",
    "",
    "    let mut outcomes: Vec<Option<Outcome>> = vec![None; STEPS.len()];",
    "    let mut blocked_by: Vec<Option<usize>> = vec![None; STEPS.len()];",
    "",
    "    for (wave_index, wave) in WAVES.iter().enumerate() \x7b",
    "        println!(\"== wave \x7b\x7d ==\", wave_index + 1);",
    "",
    "        let mut runnable = Vec::new();",
    "        for &index in wave.iter() \x7b",
    "            let step = &STEPS[index];",
    "            if let Some(cause) = blocked_by[index] \x7b",
    "                report_skip(step, &format!(\"dependency '\x7b\x7d' failed\", STEPS[cause].id));",
    "                outcomes[index] = Some(Outcome::Skipped);",
    "            \x7d else if !condition(index, step.env, &outcomes) \x7b",
    "                report_skip(step, \"condition evaluated to false\");",
    "                outcomes[index] = Some(Outcome::Skipped);",
    "            \x7d else \x7b",
    "                runnable.push(index);",
    "            \x7d",
    "        \x7d",
    "",
    "        let size = limit.unwrap_or(runnable.len()).max(1);",
    "        for chunk in runnable.chunks(size) \x7b",
    "            let runs: Vec<(usize, StepRun)> = std::thread::scope(|scope| \x7b",
    "                let handles: Vec<_> = chunk",
    "                    .iter()",
    "                    .map(|&index| \x7b",
    "                        let rt = &rt;",
    "                        (index, scope.spawn(move || run_step(rt, &STEPS[index])))",
    "                    \x7d)",
    "                    .collect();",
    "                handles",
    "                    .into_iter()",
    "                    .map(|(index, handle)| (index, handle.join().unwrap_or_else(|_| StepRun::aborted())))",
    "                    .collect()",
    "            \x7d);",
    "",
    "            for (index, run) in runs \x7b",
    "                report_run(&STEPS[index], &run);",
    "                if run.outcome == Outcome::Failed \x7b",
    "                    for &dependent in DEPENDENTS[index] \x7b",
    "                        if blocked_by[dependent].is_none() \x7b",
    "                            blocked_by[dependent] = Some(index);",
    "                        \x7d",
    "                    \x7d",
    "                \x7d",
    "                outcomes[index] = Some(run.outcome);",
    "            \x7d",
    "        \x7d",
    "    \x7d",
    "",
    "    let with = |outcome: Outcome| -> Vec<&'static str> \x7b",
    "        STEPS",
    "            .iter()",
    "            .zip(&outcomes)",
    "            .filter(|(_, o)| **o == Some(outcome))",
    "            .map(|(step, _)| step.id)",
    "            .collect()",
    "    \x7d;",
    "    let failed = with(Outcome::Failed);",
    "    let skipped_by_failure: Vec<&'static str> = STEPS",
    "        .iter()",
    "        .zip(&blocked_by)",
    "        .filter(|(_, cause)| cause.is_some())",
    "        .map(|(step, _)| step.id)",
    "        .collect();",
    "",
    "    println!(",
    "        \"\x7b\x7d succeeded, \x7b\x7d failed, \x7b\x7d skipped\",",
    "        with(Outcome::Success).len(),",
    "        failed.len(),",
    "        with(Outcome::Skipped).len()",
    "    );",
    "    if !skipped_by_failure.is_empty() \x7b",
    "        println!(\"skipped because of failures: \x7b\x7d\", skipped_by_failure.join(\", \"));",
    "    \x7d",
    "",
    "    if failed.is_empty() \x7b",
    "        ExitCode::SUCCESS",
    "    \x7d else \x7b",
    "        ExitCode::FAILURE",
    "    \x7d",
    "\x7d",
    ""]

def manifestLines : List String :=
  ["# Generated by stepforge from pipeline: \x7b\x7b pipeline_comment \x7d\x7d",
    "[package]",
    "name = \"\x7b\x7b package_name \x7d\x7d\"",
    "version = \"0.1.0\"",
    "edition = \"2021\"",
    "publish = false",
    "",
    "[[bin]]",
    "name = \"\x7b\x7b package_name \x7d\x7d\"",
    "path = \"src/main.rs\"",
    "",
    "[dependencies]",
    "",
    "[workspace]",
    ""]

def text (lines : List String) : String := "\n".intercalate lines

def program : String :=
  text (declarationLines ++ processLines ++ fileLines ++ actionLines ++ schedulerLines)

def manifest : String := text manifestLines

def programName : String := "main.rs"

def manifestName : String := "Cargo.toml"

def named (name : String) : Except GenerationError String :=
  if name = programName then .ok program
  else if name = manifestName then .ok manifest
  else .error (.unknownFragment name)

def render (name : String) (values : List (String × String)) : Except GenerationError String :=
  (named name).bind fun body => Template.render name body values

end PipelineWaves.ProgramFragment
